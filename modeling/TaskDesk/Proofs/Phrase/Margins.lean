import TaskDesk.Proofs.Phrase.Reading
import TaskDesk.Proofs.Text.Span

/-!
# Tidying up by phrases

Collapsing blanks puts a space in the place of each occurrence of a phrase, and what is trimmed
from a text are the occurrences of another one: characters that are no word characters, at the
start of the text or at its end. Each occurrence is as long as it can be, so that one is found at
most at either end, and none between them. Collapsed texts have no line breaks, so their end is
also the end of their only line.

Results:
* `replaceAll_blanks`, `eraseAll_margins`: what is replaced, and what is erased.
* `tidy_eq_substituted`: tidying up by both, one after the other.
-/

namespace TaskDesk
namespace Phrase

/-! ## The preferred end -/

section Preferred

variable {test : CodePoint → Bool} {run rest : Text}

/-- The preferred end of a run is behind all of its characters. -/
theorem head?_runEnds (hrun : ∀ c ∈ run, test c = true) (hrest : rest.head?.any test = false)
    (found : List Place) (before : Text) :
    (runEnds test 0 none found before (run ++ rest)).head? = some ⟨run.reverse ++ before, rest⟩ := by
  induction run generalizing found before with
  | nil =>
    cases rest with
    | nil => rfl
    | cons c rest =>
      have hc : ¬ test c = true := by simpa using hrest
      rw [List.nil_append, runEnds, if_neg fun h => hc h.2]
      rfl
  | cons c run ih =>
    rw [List.forall_mem_cons] at hrun
    rw [List.cons_append, runEnds, if_pos ⟨by simp, hrun.1⟩, Option.map_none, ih hrun.2,
      List.reverse_cons, List.append_assoc, List.singleton_append]

theorem head?_ends_many (hne : run ≠ []) (hrun : ∀ c ∈ run, test c = true)
    (hrest : rest.head?.any test = false) (before : Text) :
    ((many test 1 none).ends ⟨before, run ++ rest⟩).head? = some ⟨run.reverse ++ before, rest⟩ := by
  cases run with
  | nil => exact absurd rfl hne
  | cons c run =>
    rw [List.forall_mem_cons] at hrun
    rw [ends, List.cons_append, runEnds, if_pos ⟨by simp, hrun.1⟩, Option.map_none,
      head?_runEnds hrun.2 hrest, List.reverse_cons, List.append_assoc, List.singleton_append]

theorem head?_ends_seq {first second : Phrase} {p q r : Place}
    (h : (first.ends p).head? = some q) (h' : (second.ends q).head? = some r) :
    ((seq first second).ends p).head? = some r := by
  obtain ⟨more, hends⟩ := List.head?_eq_some_iff.1 h
  rw [ends, hends, List.flatMap_cons, List.head?_append, h', Option.some_or]

end Preferred

/-! ## What is left -/

section Erasing

variable {phrase : Phrase} {before : Text}

theorem eraseFrom_of_read {piece rest : Text} {q : Place} (hne : piece ≠ [])
    (hq : (phrase.ends ⟨before, piece ++ rest⟩).head? = some q) (hrest : q.after = rest) :
    phrase.eraseFrom before 0 (piece ++ rest) = phrase.eraseFrom (piece.reverse ++ before) 0 rest := by
  rw [eraseFrom_eq_markFrom, markFrom_of_read hne hq hrest, eraseFrom_eq_markFrom]
  rfl

theorem eraseFrom_of_not_read {c : CodePoint} {rest : Text}
    (h : ∀ q, q ∉ phrase.ends ⟨before, c :: rest⟩) :
    phrase.eraseFrom before 0 (c :: rest) = c :: phrase.eraseFrom (c :: before) 0 rest := by
  rw [eraseFrom_eq_markFrom, markFrom_of_not_read h, eraseFrom_eq_markFrom]
  rfl

end Erasing

/-! ## Blanks -/

/-- The text with one character in the place of each occurrence of the phrase. -/
def replaceAll (phrase : Phrase) (c : CodePoint) (t : Text) : Text :=
  (phrase.markFrom [] 0 t).map fun mark => mark.getD c

theorem collapse_run {run rest : Text} (hne : run ≠ []) (hrun : ∀ c ∈ run, isBlank c = true)
    (hrest : rest.head?.any isBlank = false) :
    Text.collapse (run ++ rest) = .char ' ' :: Text.collapse rest := by
  induction run with
  | nil => exact absurd rfl hne
  | cons c run ih =>
    rw [List.forall_mem_cons] at hrun
    rw [List.cons_append, Text.collapse, if_pos hrun.1]
    cases run with
    | nil => rw [List.nil_append, if_neg (by simp [hrest])]
    | cons d run =>
      have hd : (d :: run ++ rest).head?.any isBlank = true := hrun.2 d List.mem_cons_self
      rw [if_pos hd, ih (List.cons_ne_nil d run) hrun.2]

theorem map_markFrom_blanks (before t : Text) :
    ((blanks.markFrom before 0 t).map fun mark => mark.getD (.char ' ')) = Text.collapse t := by
  induction h : t.length using Nat.strong_induction_on generalizing before t with
  | _ n ih =>
  cases t with
  | nil => rfl
  | cons c t =>
    by_cases hc : isBlank c = true
    · -- The whole run of blanks is read at once.
      have hsplit := List.takeWhile_append_dropWhile (p := isBlank) (l := c :: t)
      have hrun : ∀ d ∈ (c :: t).takeWhile isBlank, isBlank d = true := fun d hd =>
        List.mem_takeWhile_imp hd
      have hne : (c :: t).takeWhile isBlank ≠ [] := by simp [hc]
      have hrest := Text.head?_dropWhile isBlank (c :: t)
      have hshort : ((c :: t).dropWhile isBlank).length < n := by
        have hlength := congrArg List.length hsplit
        have hpos := List.length_pos_iff.2 hne
        rw [List.length_append] at hlength
        omega
      have hmarks := markFrom_of_read hne (head?_ends_many hne hrun hrest before) rfl
      rw [hsplit, ← blanks] at hmarks
      conv_rhs => rw [← hsplit, collapse_run hne hrun hrest]
      rw [hmarks, List.map_cons, ih _ hshort _ _ rfl]
      rfl
    · have hnot : ∀ q, q ∉ blanks.ends ⟨before, c :: t⟩ := by
        intro q hq
        obtain ⟨piece, ⟨hne, hblank⟩, hafter, -⟩ := (reads_blanks _ _).1 hq
        obtain ⟨d, piece, rfl⟩ := List.exists_cons_of_ne_nil hne
        exact hc ((List.cons.inj hafter).1 ▸ hblank d List.mem_cons_self)
      rw [markFrom_of_not_read hnot, List.map_cons, Text.collapse, if_neg hc,
        ih t.length (by rw [← h]; exact Nat.lt_succ_self _) _ _ rfl]
      rfl

/-- Collapsing blanks puts a space in the place of each run of them. -/
theorem replaceAll_blanks (t : Text) : blanks.replaceAll (.char ' ') t = Text.collapse t :=
  map_markFrom_blanks [] t

/-! ## Margins -/

/-- Characters that are no word characters. -/
def wordless : Phrase := many (fun c => !isWord c) 1 none

/-- Characters that are no word characters, at the start or at the end of a text. -/
def margins : Phrase :=
  either (seq (here fun before _ => before.isNone) wordless)
    (seq wordless (here fun _ after => after.isNone))

theorem mem_ends_margins {p q : Place} (h : q ∈ margins.ends p) :
    ∃ piece, piece ≠ [] ∧ (∀ c ∈ piece, isWord c = false) ∧ p.after = piece ++ q.after ∧
      (p.before = [] ∨ q.after = []) := by
  have hread {p q : Place} (h : q ∈ wordless.ends p) :
      ∃ piece, piece ≠ [] ∧ (∀ c ∈ piece, isWord c = false) ∧ p.after = piece ++ q.after := by
    obtain ⟨piece, ⟨htest, hleast, -⟩, hafter, -⟩ := (reads_many _ _ _ p q).1 h
    exact ⟨piece, List.length_pos_iff.1 hleast, fun c hc => by simpa using htest c hc, hafter⟩
  rcases mem_ends_either.1 h with h | h <;> obtain ⟨r, hr, hq⟩ := mem_ends_seq.1 h
  · obtain ⟨rfl, hstart⟩ := mem_ends_here.1 hr
    obtain ⟨piece, hne, hword, hafter⟩ := hread hq
    exact ⟨piece, hne, hword, hafter, Or.inl (by simpa using hstart)⟩
  · obtain ⟨rfl, hend⟩ := mem_ends_here.1 hq
    obtain ⟨piece, hne, hword, hafter⟩ := hread hr
    exact ⟨piece, hne, hword, hafter, Or.inr (by simpa using hend)⟩

theorem head?_ends_wordless {run rest : Text} (hne : run ≠ []) (hrun : ∀ c ∈ run, isWord c = false)
    (hrest : ∀ c ∈ rest.head?, isWord c = true) (before : Text) :
    (wordless.ends ⟨before, run ++ rest⟩).head? = some ⟨run.reverse ++ before, rest⟩ :=
  head?_ends_many hne (fun c hc => by simp [hrun c hc]) (Text.any_not_isWord.2 hrest) before

/-- All of the margin at the start is erased. -/
theorem eraseFrom_margins_start {run rest : Text} (hrun : ∀ c ∈ run, isWord c = false)
    (hrest : ∀ c ∈ rest.head?, isWord c = true) :
    margins.eraseFrom [] 0 (run ++ rest) = margins.eraseFrom run.reverse 0 rest := by
  by_cases hne : run = []
  · rw [hne]
    rfl
  · have hstart : ((here fun before _ => before.isNone).ends ⟨[], run ++ rest⟩).head? =
        some ⟨[], run ++ rest⟩ := rfl
    have hend := head?_ends_seq hstart (head?_ends_wordless hne hrun hrest [])
    have hhead : (margins.ends ⟨[], run ++ rest⟩).head? = some ⟨run.reverse ++ [], rest⟩ := by
      rw [margins, ends, List.head?_append, hend, Option.some_or]
    rw [eraseFrom_of_read hne hhead rfl, List.append_nil]

/-- All of the margin at the end is erased. -/
theorem eraseFrom_margins_end {before run : Text} (hbefore : before ≠ [])
    (hrun : ∀ c ∈ run, isWord c = false) : margins.eraseFrom before 0 run = [] := by
  by_cases hne : run = []
  · rw [hne]
    rfl
  · have hlast : ((here fun _ after => after.isNone).ends ⟨run.reverse ++ before, []⟩).head? =
        some ⟨run.reverse ++ before, []⟩ := rfl
    have hend := head?_ends_seq (head?_ends_wordless hne hrun (by simp) before) hlast
    have hnone : (seq (here fun before _ => before.isNone) wordless).ends ⟨before, run ++ []⟩ = [] := by
      obtain ⟨c, before, rfl⟩ := List.exists_cons_of_ne_nil hbefore
      rfl
    have hhead : (margins.ends ⟨before, run ++ []⟩).head? = some ⟨run.reverse ++ before, []⟩ := by
      rw [margins, ends, hnone, List.nil_append, hend]
    rw [← List.append_nil run, eraseFrom_of_read hne hhead rfl]
    rfl

/-- From a word character on, and behind another character, nothing is erased as long as a word
    character follows. -/
theorem eraseFrom_margins_inside {before part after : Text}
    (hstart : before = [] → ∀ c ∈ part.head?, isWord c = true)
    (hlast : ∀ c ∈ part.getLast?, isWord c = true) :
    margins.eraseFrom before 0 (part ++ after) =
      part ++ margins.eraseFrom (part.reverse ++ before) 0 after := by
  induction part generalizing before with
  | nil => rfl
  | cons c part ih =>
    have hnot : ∀ q, q ∉ margins.ends ⟨before, c :: (part ++ after)⟩ := by
      intro q hq
      obtain ⟨piece, hne, hword, hafter, hend⟩ := mem_ends_margins hq
      change c :: (part ++ after) = piece ++ q.after at hafter
      rcases hend with hend | hend
      · obtain ⟨d, piece, rfl⟩ := List.exists_cons_of_ne_nil hne
        have hfirst : isWord c = true := hstart hend c rfl
        rw [(List.cons.inj hafter).1, hword d List.mem_cons_self] at hfirst
        cases hfirst
      · rw [hend, List.append_nil, ← List.cons_append] at hafter
        have hmem : (c :: part).getLast (List.cons_ne_nil c part) ∈ piece := by
          rw [← hafter]
          exact List.mem_append_left after (List.getLast_mem _)
        have hinside := hlast _ (List.getLast?_eq_some_getLast (List.cons_ne_nil c part))
        rw [hword _ hmem] at hinside
        cases hinside
    have hlater : ∀ d ∈ part.getLast?, isWord d = true := by
      intro d hd
      refine hlast d ?_
      rw [List.getLast?_cons, Option.mem_def.1 hd]
      rfl
    rw [List.cons_append, eraseFrom_of_not_read hnot, ih (fun h => absurd h (by simp)) hlater]
    simp

/-- **Erasing the margins** trims a text of what is no word character. -/
theorem eraseAll_margins (t : Text) : margins.eraseAll t = Text.trimBy (fun c => !isWord c) t := by
  have hspan : Text.IsSpan t (Text.trimBy (fun c => !isWord c) t) := Text.isSpan_iff.2 rfl
  generalize Text.trimBy (fun c => !isWord c) t = part at hspan
  obtain ⟨⟨before, after, rfl, hbefore, hafter⟩, hfirst, hlast⟩ := hspan
  by_cases hne : part = []
  · -- Then the whole text is one margin.
    have hall : ∀ c ∈ before ++ after, isWord c = false := fun c hc =>
      (List.mem_append.1 hc).elim (hbefore c) (hafter c)
    have hnil : ∀ c ∈ ([] : Text).head?, isWord c = true := by simp
    have hnone := eraseFrom_margins_start hall hnil
    rw [List.append_nil] at hnone
    rw [eraseAll, hne, List.append_nil, hnone]
    rfl
  · have hhead : ∀ c ∈ (part ++ after).head?, isWord c = true := by
      rwa [List.head?_append_of_ne_nil _ hne]
    have hpassed : part.reverse ++ before.reverse ≠ [] := by simp [hne]
    rw [eraseAll, List.append_assoc, eraseFrom_margins_start hbefore hhead,
      eraseFrom_margins_inside (fun _ => hfirst) hlast, eraseFrom_margins_end hpassed hafter,
      List.append_nil]

/-- **Tidying up** puts single spaces in the place of blanks, erases the margins, and trims. -/
theorem tidy_eq_substituted (t : Text) :
    Text.tidy t = Text.trim (margins.eraseAll (blanks.replaceAll (.char ' ') t)) := by
  rw [eraseAll_margins, replaceAll_blanks, Text.tidy]

end Phrase
end TaskDesk
