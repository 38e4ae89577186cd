import TaskDesk.Proofs.Phrase.Alone

/-!
# All occurrences of a phrase

A search finds the first occurrence of a phrase. The others are found by going on behind it,
so that occurrences do not overlap. Before the first one the phrase can be read nowhere.

Results:
* `occurrencesFrom_of_some`: the first occurrence, and the others behind it.
* `head?_occurrences`: the first of all occurrences is the one that is found.
* `not_mem_ends_of_find?`: no occurrence begins before the one that is found.
-/

namespace TaskDesk
namespace Phrase

/-- The occurrences of the phrase in the text after `before` that are not empty, of which the
    first `skip` characters belong to one already met. -/
def occurrencesFrom (phrase : Phrase) : (before : Text) → (skip : Nat) → (after : Text) →
    List Occurrence
  | _, _, [] => []
  | before, skip + 1, c :: rest => occurrencesFrom phrase (c :: before) skip rest
  | before, 0, c :: rest =>
    match (phrase.ends ⟨before, c :: rest⟩).head? with
    | some q =>
      match (c :: rest).length - q.after.length with
      | 0 => occurrencesFrom phrase (c :: before) 0 rest
      | length + 1 =>
        between ⟨before, c :: rest⟩ q :: occurrencesFrom phrase (c :: before) length rest
    | none => occurrencesFrom phrase (c :: before) 0 rest

/-- The occurrences of the phrase that are not empty, found from left to right and not
    overlapping. -/
def occurrences (phrase : Phrase) (t : Text) : List Occurrence := phrase.occurrencesFrom [] 0 t

variable {phrase : Phrase}

/-- What belongs to an occurrence already met is passed over. -/
theorem occurrencesFrom_skip (phrase : Phrase) (piece before after : Text) :
    phrase.occurrencesFrom before piece.length (piece ++ after) =
      phrase.occurrencesFrom (piece.reverse ++ before) 0 after := by
  induction piece generalizing before with
  | nil => rfl
  | cons c piece ih => simp [occurrencesFrom, ih]

theorem occurrencesFrom_of_none {before after : Text} (h : phrase.findFrom before after = none) :
    phrase.occurrencesFrom before 0 after = [] := by
  induction after generalizing before with
  | nil => rfl
  | cons c rest ih =>
    rw [findFrom] at h
    split at h
    · cases h
    · rename_i hq
      rw [occurrencesFrom, hq]
      exact ih h

/-- The first occurrence is the one that is found, unless it is empty, and the others come
    behind it. -/
theorem occurrencesFrom_of_some {before after : Text} {o : Occurrence}
    (h : phrase.findFrom before after = some o) (hne : o.piece ≠ []) :
    phrase.occurrencesFrom before 0 after =
      o :: phrase.occurrencesFrom (o.piece.reverse ++ o.before.reverse) 0 o.after := by
  induction after generalizing before with
  | nil =>
    obtain ⟨q, -, rfl⟩ := Option.map_eq_some_iff.1 h
    exact absurd List.take_nil hne
  | cons c rest ih =>
    rw [findFrom] at h
    split at h
    · rename_i q hq
      cases h
      obtain ⟨piece, hafter, -⟩ := reaches_of_mem_ends phrase (List.mem_of_head? hq)
      have hbetween : between ⟨before, c :: rest⟩ q = ⟨before.reverse, piece, q.after⟩ := by
        rw [between, hafter, List.length_append, Nat.add_sub_cancel, List.take_left]
      rw [hbetween] at hne ⊢
      cases piece with
      | nil => exact absurd rfl hne
      | cons d piece =>
        have hc : c = d := (List.cons.inj hafter).1
        have hrest : rest = piece ++ q.after := (List.cons.inj hafter).2
        subst hc hrest
        have hlength : (c :: (piece ++ q.after)).length - q.after.length = piece.length + 1 := by
          simp only [List.length_cons, List.length_append]
          omega
        rw [occurrencesFrom, hq]
        dsimp only
        rw [hlength]
        dsimp only
        rw [occurrencesFrom_skip, hbetween]
        simp
    · rename_i hq
      rw [occurrencesFrom, hq]
      exact ih h

/-- **The first occurrence** is the one that is found. -/
theorem head?_occurrences (hcuts : CutsWords phrase) (t : Text) :
    (phrase.occurrences t).head? = phrase.find? t := by
  cases hfind : phrase.find? t with
  | none => rw [occurrences, occurrencesFrom_of_none hfind, List.head?_nil]
  | some o =>
    rw [occurrences, occurrencesFrom_of_some hfind (hcuts.piece_ne_nil hfind), List.head?_cons]

theorem not_mem_ends_of_findFrom {before passed rest : Text} {o : Occurrence}
    (h : phrase.findFrom before (passed ++ rest) = some o)
    (hlt : before.length + passed.length < o.before.length) (q : Place) :
    q ∉ phrase.ends ⟨passed.reverse ++ before, rest⟩ := by
  induction passed generalizing before with
  | nil =>
    cases rest with
    | nil =>
      obtain ⟨r, -, rfl⟩ := Option.map_eq_some_iff.1 h
      simp [between] at hlt
    | cons c rest =>
      rw [List.nil_append, findFrom] at h
      split at h
      · cases h
        simp [between] at hlt
      · rename_i hhead
        rw [List.reverse_nil, List.nil_append, List.head?_eq_none_iff.1 hhead]
        exact List.not_mem_nil
  | cons c passed ih =>
    rw [List.length_cons] at hlt
    rw [List.cons_append, findFrom] at h
    split at h
    · cases h
      simp only [between, List.length_reverse] at hlt
      omega
    · rw [List.reverse_cons, List.append_assoc]
      exact ih h (by rw [List.length_append, List.length_singleton]; omega)

/-- Before the occurrence that is found, the phrase is read nowhere. -/
theorem not_mem_ends_of_find? {before after : Text} {o : Occurrence}
    (h : phrase.find? (before ++ after) = some o) (hlt : before.length < o.before.length)
    (q : Place) : q ∉ phrase.ends ⟨before.reverse, after⟩ := by
  have hnot := not_mem_ends_of_findFrom h (by simpa using hlt) q
  rwa [List.append_nil] at hnot

end Phrase
end TaskDesk
