import TaskDesk.Text.Blank

/-!
# Pieces between separators

A separator stands between two pieces of a text and in none of them, so pieces
without separators are found again in the text in which they are joined.

Results:
* `not_mem_of_mem_split`: no piece of a text holds the separator.
* `split_join`: splitting undoes joining.
* `split_append`: a text that is cut at a separator is split in two.
-/

namespace TaskDesk
namespace Text

variable {sep : CodePoint}

theorem split_cons_sep (t : Text) : split sep (sep :: t) = [] :: split sep t := by
  simp [split]

theorem split_cons_of_ne {c : CodePoint} (h : c ≠ sep) {t piece : Text} {more : List Text}
    (ht : split sep t = piece :: more) : split sep (c :: t) = (c :: piece) :: more := by
  simp [split, h, ht]

/-- No piece of a text holds the separator. -/
theorem not_mem_of_mem_split (t : Text) : ∀ piece ∈ split sep t, sep ∉ piece := by
  induction t with
  | nil => simp [split]
  | cons c t ih =>
    obtain ⟨first, more, ht⟩ := List.exists_cons_of_ne_nil (split_ne_nil sep t)
    rw [ht, List.forall_mem_cons] at ih
    by_cases hc : c = sep
    · rw [hc, split_cons_sep, ht]
      simpa using ih
    · rw [split_cons_of_ne hc ht, List.forall_mem_cons]
      refine ⟨?_, ih.2⟩
      rw [List.mem_cons, not_or]
      exact ⟨fun h => hc h.symm, ih.1⟩

/-- What is in a piece of a text is in the text. -/
theorem mem_of_mem_split {t piece : Text} {c : CodePoint} (hpiece : piece ∈ split sep t)
    (hc : c ∈ piece) : c ∈ t := by
  induction t generalizing piece with
  | nil =>
    rw [split, List.mem_singleton] at hpiece
    rw [hpiece] at hc
    cases hc
  | cons d t ih =>
    obtain ⟨first, more, ht⟩ := List.exists_cons_of_ne_nil (split_ne_nil sep t)
    by_cases hd : d = sep
    · rw [hd, split_cons_sep, List.mem_cons] at hpiece
      rcases hpiece with rfl | hpiece
      · cases hc
      · exact List.mem_cons_of_mem d (ih hpiece hc)
    · rw [split_cons_of_ne hd ht, List.mem_cons] at hpiece
      rcases hpiece with rfl | hpiece
      · rcases List.mem_cons.1 hc with rfl | hc
        · exact List.mem_cons_self
        · exact List.mem_cons_of_mem d (ih (ht ▸ List.mem_cons_self) hc)
      · exact List.mem_cons_of_mem d (ih (ht ▸ List.mem_cons_of_mem first hpiece) hc)

theorem split_of_not_mem {t : Text} (h : sep ∉ t) : split sep t = [t] := by
  induction t with
  | nil => rfl
  | cons c t ih =>
    rw [List.mem_cons, not_or] at h
    exact split_cons_of_ne (fun hc => h.1 hc.symm) (ih h.2)

theorem split_append_cons {s : Text} (h : sep ∉ s) (t : Text) :
    split sep (s ++ sep :: t) = s :: split sep t := by
  induction s with
  | nil => exact split_cons_sep t
  | cons c s ih =>
    rw [List.mem_cons, not_or] at h
    exact split_cons_of_ne (fun hc => h.1 hc.symm) (ih h.2)

theorem join_append {ts us : List Text} (hts : ts ≠ []) (hus : us ≠ []) :
    join sep (ts ++ us) = join sep ts ++ sep :: join sep us := by
  induction ts with
  | nil => exact absurd rfl hts
  | cons t ts ih =>
    cases ts with
    | nil =>
      obtain ⟨u, us, rfl⟩ := List.exists_cons_of_ne_nil hus
      rfl
    | cons next ts =>
      have hrest := ih (List.cons_ne_nil next ts)
      rw [List.cons_append] at hrest
      show t ++ sep :: join sep (next :: (ts ++ us)) = t ++ sep :: join sep (next :: ts) ++ _
      rw [hrest, List.append_assoc]
      rfl

/-- **Splitting undoes joining.** -/
theorem split_join {pieces : List Text} (hne : pieces ≠ []) (h : ∀ piece ∈ pieces, sep ∉ piece) :
    split sep (join sep pieces) = pieces := by
  induction pieces with
  | nil => exact absurd rfl hne
  | cons piece more ih =>
    rw [List.forall_mem_cons] at h
    cases more with
    | nil => exact split_of_not_mem h.1
    | cons next more =>
      have hrest := ih (by simp) h.2
      show split sep (piece ++ sep :: join sep (next :: more)) = piece :: next :: more
      rw [split_append_cons h.1, hrest]

/-- The pieces on both sides of a separator. -/
theorem split_append (s t : Text) : split sep (s ++ sep :: t) = split sep s ++ split sep t := by
  have hjoin : s ++ sep :: t = join sep (split sep s ++ split sep t) := by
    rw [join_append (split_ne_nil sep s) (split_ne_nil sep t), join_split, join_split]
  rw [hjoin, split_join (List.append_ne_nil_of_left_ne_nil (split_ne_nil sep s) _)]
  exact List.forall_mem_append.2 ⟨not_mem_of_mem_split s, not_mem_of_mem_split t⟩

end Text
end TaskDesk
