import Mathlib
import TaskDesk.Proofs.Phrase.Reading

/-!
# Dates that are written with words

Relative dates and weekdays are the dates that are written with words, and they are looked
for before dates of numbers. Where one of them occurs in a text and no other one does, it
is the date of the text.

Results:
* `DateWord.readsWords_phrase`: what is read as one of them.
* `dateWordCount_eq_one`: the number of expressions in a text with a single kind of them.
* `extractDate_of_only`: the date of such a text.
-/

namespace TaskDesk

open Phrase

/-- What a date written with words can be. -/
inductive DateWord where
  | relative (r : RelativeDate)
  | weekday (w : Weekday)
deriving DecidableEq, Repr

namespace DateWord

/-- All of them, in the order in which they are looked for. -/
def all : List DateWord := RelativeDate.all.map .relative ++ Weekday.all.map .weekday

theorem mem_all (d : DateWord) : d ∈ all := by
  cases d with
  | relative r => cases r <;> decide
  | weekday w => cases w <;> decide

/-- How the date is written. -/
def phrase : DateWord → Phrase
  | relative r => r.phrase
  | weekday w => w.phrase

/-- The words of the date, in each way to write it. -/
def spellings : DateWord → List (List Text)
  | relative r => [r.spelling]
  | weekday w => w.spellings

/-- The date that is meant on a given day. -/
def resolve (today : Date) : DateWord → Option Date
  | relative r => r.resolve today
  | weekday w => today.following w

theorem isWordText_spellings (d : DateWord) : ∀ ws ∈ d.spellings, ∀ w ∈ ws, IsWordText w := by
  have checked : ∀ d ∈ all, ∀ ws ∈ d.spellings, ∀ w ∈ ws, IsWordText w := by decide +kernel
  exact checked d (mem_all d)

theorem readsWords_phrase (d : DateWord) : ReadsWords d.phrase (SpellsOneOf d.spellings) := by
  cases d with
  | relative r => exact r.readsWords_phrase
  | weekday w => exact w.readsWords_phrase

end DateWord

/-! ## Texts with dates -/

/-- How many relative dates and weekdays occur in a text. -/
def dateWordCount (t : Text) : Nat :=
  (RelativeDate.all.map fun r => r.phrase.count t).sum +
    (Weekday.all.map fun w => w.phrase.count t).sum

variable {d : DateWord} {t : Text}

theorem dateWordCount_eq (t : Text) :
    dateWordCount t = (DateWord.all.map fun d => d.phrase.count t).sum := by
  rw [DateWord.all, List.map_append, List.sum_append, List.map_map, List.map_map]
  rfl

/-- Where one expression occurs, and no expression for another date, there is one. -/
theorem dateWordCount_eq_one (hone : d.phrase.count t = 1)
    (honly : ∀ d' ≠ d, d'.phrase.find? t = none) : dateWordCount t = 1 := by
  have hsingle : ∀ d ∈ DateWord.all, DateWord.all.count d = 1 := by decide
  rw [dateWordCount_eq, List.sum_map_eq_nsmul_single d, hsingle d d.mem_all, hone, one_nsmul]
  intro d' hne _
  exact d'.readsWords_phrase.count_of_absent (d'.readsWords_phrase.find?_eq_none_iff.1 (honly d' hne))

theorem findSome?_of_only {α β : Type} {l : List α} {f : α → Option β} {a : α} (ha : a ∈ l)
    (honly : ∀ x ∈ l, x ≠ a → f x = none) {b : β} (hb : f a = some b) : l.findSome? f = some b := by
  induction l with
  | nil => cases ha
  | cons x l ih =>
    rw [List.findSome?_cons]
    cases hx : f x with
    | some y =>
      have hxa : x = a := by
        by_contra hne
        rw [honly x List.mem_cons_self hne] at hx
        cases hx
      rw [hxa, hb] at hx
      exact congrArg some (Option.some.inj hx).symm
    | none =>
      refine ih ((List.mem_cons.1 ha).resolve_left ?_)
        fun x hmem => honly x (List.mem_cons_of_mem _ hmem)
      rintro rfl
      rw [hb] at hx
      cases hx

/-- Dates that are written with words come first, in their order. -/
theorem extractDate_eq (today : Date) (t : Text) :
    extractDate today t =
      match DateWord.all.findSome? fun d => (d.phrase.find? t).map fun o => (d, o) with
      | some (d, o) => foundDate (d.resolve today) o
      | none => .ok (NumericDate.separators.findSome? (NumericDate.find? today.year t)) := by
  -- Each of the two lists with its members as dates written with words.
  have hpart : ∀ {α : Type} (l : List α) (word : α → DateWord),
      ((l.map word).findSome? fun d => (d.phrase.find? t).map fun o => (d, o)) =
        (l.findSome? fun a => ((word a).phrase.find? t).map fun o => (a, o)).map
          fun found => (word found.1, found.2) := by
    intro α l word
    induction l with
    | nil => rfl
    | cons a l ih =>
      rw [List.map_cons, List.findSome?_cons, List.findSome?_cons, ih]
      cases (word a).phrase.find? t <;> rfl
  rw [extractDate, DateWord.all, List.findSome?_append, hpart, hpart]
  simp only [DateWord.phrase]
  cases RelativeDate.all.findSome? fun r => (r.phrase.find? t).map fun o => (r, o) with
  | some found => rfl
  | none =>
    cases Weekday.all.findSome? fun w => (w.phrase.find? t).map fun o => (w, o) with
    | some found => rfl
    | none => rfl

/-- The date of a text in which no expression for another date occurs. -/
theorem extractDate_of_only {o : Occurrence} (hfind : d.phrase.find? t = some o)
    (honly : ∀ d' ≠ d, d'.phrase.find? t = none) (today : Date) :
    extractDate today t = foundDate (d.resolve today) o := by
  rw [extractDate_eq, findSome?_of_only d.mem_all (fun d' _ hne => ?_)
    (Option.map_eq_some_iff.2 ⟨o, hfind, rfl⟩)]
  exact Option.map_eq_none_iff.2 (honly d' hne)

end TaskDesk
