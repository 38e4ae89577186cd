import Mathlib.Data.List.Lex
import TaskDesk.Text.Basic

/-!
# Texts in order

Texts are ordered as the lists of the numbers of their code points, so the order
is total. A common beginning of two texts does not count.

Results:
* `precedes_iff`: the order of texts is the one of lists of numbers.
* `precedes_total`, `precedes_trans`, `precedes_antisymm`: it is a total order.
* `precedes_append_left`: the order of texts with a common beginning.
-/

namespace TaskDesk

theorem CodePoint.toNat_injective {c d : CodePoint} (h : c.toNat = d.toNat) : c = d := by
  have hsame : CodePoint.ofNat? c.toNat = CodePoint.ofNat? d.toNat := by rw [h]
  rw [ofNat?_toNat, ofNat?_toNat] at hsame
  exact Option.some.inj hsame

namespace Text

theorem precedes_iff {s t : Text} :
    precedes s t = true ↔ s.map CodePoint.toNat ≤ t.map CodePoint.toNat := by
  rw [← not_lt]
  induction s generalizing t with
  | nil => simp [precedes]
  | cons c s ih =>
    cases t with
    | nil => simp [precedes]
    | cons d t =>
      rw [List.map_cons, List.map_cons, List.cons_lt_cons_iff, precedes]
      by_cases hcd : c = d
      · simp [hcd, ih]
      · have hne : d.toNat ≠ c.toNat := fun h => hcd (CodePoint.toNat_injective h.symm)
        simp only [hcd, hne, if_false, false_and, or_false, decide_eq_true_eq]
        omega

theorem precedes_refl (s : Text) : precedes s s = true := precedes_iff.2 le_rfl

theorem precedes_total (s t : Text) : precedes s t = true ∨ precedes t s = true := by
  rw [precedes_iff, precedes_iff]
  exact le_total _ _

theorem precedes_trans {s t u : Text} (hst : precedes s t = true) (htu : precedes t u = true) :
    precedes s u = true := by
  rw [precedes_iff] at hst htu ⊢
  exact le_trans hst htu

theorem precedes_antisymm {s t : Text} (hst : precedes s t = true) (hts : precedes t s = true) :
    s = t := by
  rw [precedes_iff] at hst hts
  exact List.map_injective_iff.2 (fun _ _ => CodePoint.toNat_injective) (le_antisymm hst hts)

/-- A sorted list of texts is in order. -/
theorem pairwise_mergeSort (ts : List Text) :
    (ts.mergeSort precedes).Pairwise (precedes · ·) := by
  apply List.pairwise_mergeSort
  · intro s t u
    exact precedes_trans
  · intro s t
    rw [Bool.or_eq_true]
    exact precedes_total s t

theorem precedes_append_left (before s t : Text) :
    precedes (before ++ s) (before ++ t) = precedes s t := by
  induction before with
  | nil => rfl
  | cons c before ih =>
    show (if c = c then precedes (before ++ s) (before ++ t) else _) = precedes s t
    rw [if_pos rfl, ih]

end Text
end TaskDesk
