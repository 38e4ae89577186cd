import TaskDesk.Text.Blank
import TaskDesk.Text.Word

/-!
# Runs of a class and cuts of a text

The tokens and the words of a text are its maximal runs of a class of
characters. A cut of the text cuts a run exactly if the characters on both sides
of it belong to the class; at all other cuts the runs of the two parts are the
runs of the whole. Everything else about runs follows from this one equation.

Results:
* `runs_append`: the runs of a text that is cut between runs.
* `runs_join`: the runs of texts that are joined by a separator.
* `flatMap_runs`: runs are their own runs.
-/

namespace TaskDesk
namespace Text

variable {test : CodePoint → Bool}

/-- No run of the class goes across the seam between two texts. -/
def Apart (test : CodePoint → Bool) (s t : Text) : Prop :=
  s.getLast?.any test = true → t.head?.any test = false

theorem apart_nil_left (t : Text) : Apart test [] t := by simp [Apart]

theorem apart_nil_right (s : Text) : Apart test s [] := by simp [Apart]

theorem apart_of_head {s t : Text} (h : t.head?.any test = false) : Apart test s t := fun _ => h

theorem apart_of_last {s t : Text} (h : s.getLast?.any test = false) : Apart test s t := by
  intro hs
  rw [h] at hs
  cases hs

theorem apart_cons_cons {c d : CodePoint} {s t : Text} :
    Apart test (c :: d :: s) t ↔ Apart test (d :: s) t := by
  unfold Apart
  rw [List.getLast?_cons_cons]

theorem head?_append_any {s t : Text} (h : s.head?.any test = true) :
    (s ++ t).head?.any test = true := by
  cases s with
  | nil => cases h
  | cons c s => exact h

theorem getLast?_append_any {s t : Text} (h : t.getLast?.any test = true) :
    (s ++ t).getLast?.any test = true := by
  cases ht : t.getLast? with
  | none => rw [ht] at h; cases h
  | some c => rwa [List.getLast?_append, ht, Option.some_or, ← ht]

theorem head?_left {s t : Text} (h : (s ++ t).head?.any test = false) :
    s.head?.any test = false := by
  cases s with
  | nil => rfl
  | cons c s => exact h

theorem getLast?_right {s t : Text} (h : (s ++ t).getLast?.any test = false) :
    t.getLast?.any test = false := by
  cases ht : t.getLast? with
  | none => rfl
  | some c => rwa [List.getLast?_append, ht, Option.some_or] at h

theorem head?_of_forall {t : Text} (h : ∀ c ∈ t, test c = false) : t.head?.any test = false := by
  cases t with
  | nil => rfl
  | cons c t => exact h c List.mem_cons_self

theorem getLast?_of_forall {t : Text} (hne : t ≠ []) (h : ∀ c ∈ t, test c = true) :
    t.getLast?.any test = true := by
  rw [List.getLast?_eq_some_getLast hne]
  exact h _ (List.getLast_mem hne)

/-! ## Runs of a concatenation -/

theorem runs_cons_of_not {c : CodePoint} (h : test c = false) (t : Text) :
    runs test (c :: t) = runs test t := by
  simp [runs, h]

theorem runs_cons_ne_nil {c : CodePoint} (h : test c = true) (t : Text) :
    runs test (c :: t) ≠ [] := by
  unfold runs
  rw [if_pos h]
  split
  · split <;> simp
  · simp

/-- **Runs of a text that is cut between runs.** -/
theorem runs_append {s t : Text} (h : Apart test s t) :
    runs test (s ++ t) = runs test s ++ runs test t := by
  induction s with
  | nil => rfl
  | cons c s ih =>
    by_cases hc : test c = true
    · cases s with
      | nil =>
        have ht : t.head?.any test = false := h (by simpa using hc)
        simp [runs, hc, ht]
      | cons d s =>
        have hs := ih (apart_cons_cons.1 h)
        rw [List.cons_append, runs, if_pos hc, runs, if_pos hc, hs]
        by_cases hd : test d = true
        · obtain ⟨run, more, hr⟩ := List.exists_cons_of_ne_nil (runs_cons_ne_nil hd s)
          simp [hd, hr]
        · simp [hd]
    · have hc : test c = false := by simpa using hc
      have hs : Apart test s t := by
        cases s with
        | nil => exact apart_nil_left t
        | cons d s => exact apart_cons_cons.1 h
      rw [List.cons_append, runs_cons_of_not hc, runs_cons_of_not hc, ih hs]

theorem runs_append_cons {c : CodePoint} (h : test c = false) (s t : Text) :
    runs test (s ++ c :: t) = runs test s ++ runs test t := by
  rw [runs_append (apart_of_head (by simpa using h)), runs_cons_of_not h]

theorem runs_eq_nil {t : Text} (h : ∀ c ∈ t, test c = false) : runs test t = [] := by
  induction t with
  | nil => rfl
  | cons c t ih =>
    rw [runs_cons_of_not (h c (by simp))]
    exact ih fun d hd => h d (by simp [hd])

theorem runs_of_forall {t : Text} (hne : t ≠ []) (h : ∀ c ∈ t, test c = true) :
    runs test t = [t] := by
  induction t with
  | nil => exact absurd rfl hne
  | cons c t ih =>
    have hc : test c = true := h c (by simp)
    cases t with
    | nil => simp [runs, hc]
    | cons d t =>
      have hd : test d = true := h d (by simp)
      have ht := ih (by simp) fun e he => h e (by simp [he])
      rw [runs, if_pos hc, ht]
      simp [hd]

/-- The runs of texts that are joined by a separator outside the class. -/
theorem runs_join {sep : CodePoint} (h : test sep = false) (ts : List Text) :
    runs test (join sep ts) = ts.flatMap (runs test) := by
  induction ts with
  | nil => rfl
  | cons t ts ih =>
    cases ts with
    | nil => simp [join]
    | cons u ts =>
      rw [join, runs_append_cons h, ih]
      · simp
      · simp

theorem flatMap_runs {ts : List Text} (h : ∀ t ∈ ts, t ≠ [] ∧ ∀ c ∈ t, test c = true) :
    ts.flatMap (runs test) = ts := by
  induction ts with
  | nil => rfl
  | cons t ts ih =>
    obtain ⟨hne, ht⟩ := h t (by simp)
    rw [List.flatMap_cons, runs_of_forall hne ht, ih fun u hu => h u (by simp [hu])]
    rfl

end Text
end TaskDesk
