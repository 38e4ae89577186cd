import Mathlib.Data.List.Nodup
import TaskDesk.Draft.PriorityPhrase
import TaskDesk.Proofs.Phrase.Seam

/-!
# What is read as a priority

The keywords of a priority are read where they stand as whole words, in any case, with
their own characters between their words. So are the openers of reminders. The priority of
a text is the first one of which a keyword stands there; behind a text, a keyword prevails
if no priority of that text is looked for earlier.

Results:
* `readsWords_anyKeyword`: what is read as one of some keywords.
* `readsWords_priorityKeywords`, `readsWords_reminderOpeners`.
* `priorityOf_eq`: the priority of a text.
* `occursIn_anyKeyword_append`: which keywords are in a text that ends with one.
-/

namespace TaskDesk

open Phrase
open Text (words fold)

/-! ## Keywords -/

/-- Keywords that begin and end with a word character are read as whole words. -/
theorem readsWords_anyKeyword {keywords : List Text}
    (h : ∀ t ∈ keywords, t.head?.any isWord = true ∧ t.getLast?.any isWord = true) :
    ReadsWords (anyKeyword keywords) (fold · ∈ keywords) := by
  have hread : Reads (oneOf (keywords.map letters)) (fold · ∈ keywords) :=
    (reads_oneOf letters (fun t piece => fold piece = t) fun t _ => reads_letters t).congr
      fun piece => by simp
  refine hread.whole ⟨fun piece hpiece => ?_, fun piece hpiece => ?_⟩
  · rw [← Text.head?_fold]
    exact (h _ hpiece).1
  · rw [← Text.getLast?_fold]
    exact (h _ hpiece).2

theorem readsWords_priorityKeywords :
    ∀ entry ∈ priorityKeywords, ReadsWords (anyKeyword entry.2) (fold · ∈ entry.2) := by
  have hends : ∀ entry ∈ priorityKeywords, ∀ t ∈ entry.2,
      t.head?.any isWord = true ∧ t.getLast?.any isWord = true := by decide +kernel
  exact fun entry hentry => readsWords_anyKeyword (hends entry hentry)

theorem readsWords_reminderOpeners :
    ReadsWords (anyKeyword reminderOpeners) (fold · ∈ reminderOpeners) :=
  readsWords_anyKeyword (by decide +kernel)

namespace Phrase

variable {phrase : Phrase} {R : Text → Prop} {s t : Text}

theorem ReadsWords.occursIn_eq_false_iff (h : ReadsWords phrase R) :
    phrase.occursIn t = false ↔ Absent R t := by
  rw [occursIn, Option.isSome_eq_false_iff, Option.isNone_iff_eq_none, h.find?_eq_none_iff]

/-- Characters that belong to no word do not matter at the end of a text. -/
theorem ReadsWords.occursIn_append (h : ReadsWords phrase R) (ht : ∀ c ∈ t, isWord c = false) :
    phrase.occursIn (s ++ t) = phrase.occursIn s := by
  rw [Bool.eq_iff_iff, ← not_iff_not, Bool.not_eq_true, Bool.not_eq_true, h.occursIn_eq_false_iff,
    h.occursIn_eq_false_iff]
  exact ⟨fun habsent => habsent.left (Text.head?_of_forall ht),
    fun habsent => habsent.append h.toWordEnds ht⟩

end Phrase

/-- In a text that ends with a keyword stand the keywords of the text before it and itself,
    if no others end with words of its own. -/
theorem occursIn_anyKeyword_append {keywords : List Text} {s k tail : Text}
    (hreads : ReadsWords (anyKeyword keywords) (fold · ∈ keywords))
    (hbreak : s.getLast?.any isWord = false) (hlast : k.getLast?.any isWord = true)
    (hfold : fold k = k) (htail : ∀ c ∈ tail, isWord c = false)
    (hends : ∀ t ∈ keywords, (words t <:+ words k ∨ words k <:+ words t) → t = k)
    (hinner : ∀ t ∈ keywords, ∀ w ∈ (words t).getLast?, w ∉ (words k).dropLast) :
    (anyKeyword keywords).occursIn (s ++ (k ++ tail)) =
      ((anyKeyword keywords).occursIn s || decide (k ∈ keywords)) := by
  have hwords : (words k).map fold = words k := by rw [← Text.words_fold, hfold]
  rw [Bool.eq_iff_iff, ← not_iff_not, Bool.not_eq_true, hreads.occursIn_eq_false_iff,
    Bool.not_eq_true, Bool.or_eq_false_iff, hreads.occursIn_eq_false_iff, decide_eq_false_iff_not]
  constructor
  · refine fun habsent => ⟨habsent.of_front hreads.toWordEnds hbreak, fun hmem => ?_⟩
    refine habsent ⟨s, k, tail⟩ ⟨List.append_assoc _ _ _, ?_, hbreak, Text.head?_of_forall htail⟩
    rwa [hfold]
  · rintro ⟨habsent, hmem⟩ o ho
    rw [← List.append_assoc] at ho
    obtain ⟨-, -, hsame⟩ := ho.at_end hreads.toWordEnds habsent hbreak hlast htail
      fun piece hpiece w hw => by
        rw [← Text.words_fold] at hw
        rw [hwords]
        exact hinner _ hpiece w hw
    rw [hwords, ← Text.words_fold] at hsame
    exact hmem (hends _ ho.piece hsame ▸ ho.piece)

/-! ## Priorities -/

/-- The priority of a text. -/
def priorityOf (t : Text) : Option Priority := (extractPriority t).map Found.value

/-- The priority of a text is the first one of which a keyword occurs. -/
theorem priorityOf_eq (t : Text) :
    priorityOf t =
      (priorityKeywords.find? fun entry => (anyKeyword entry.2).occursIn t).map Prod.fst := by
  have hlist : ∀ l : List (Priority × List Text),
      ((l.findSome? fun entry => ((anyKeyword entry.2).find? t).map fun o =>
        (⟨entry.1, o.residual⟩ : Found Priority)).map Found.value) =
      (l.find? fun entry => (anyKeyword entry.2).occursIn t).map Prod.fst := by
    intro l
    induction l with
    | nil => rfl
    | cons entry l ih =>
      rw [List.findSome?_cons, List.find?_cons, occursIn]
      cases (anyKeyword entry.2).find? t with
      | none => exact ih
      | some o => rfl
  exact hlist priorityKeywords

/-- The place of a priority in the order in which priorities are looked for. -/
def Priority.turn (p : Priority) : Nat := (priorityKeywords.map Prod.fst).idxOf p

/-- The first entry that passes one of two tests has the key of the first one that passes
    the second test, just where none that comes earlier passes the first test. -/
theorem find?_or_eq_iff {α β : Type} [DecidableEq β] {l : List α} {key : α → β}
    (hnodup : (l.map key).Nodup) {a b : α → Bool} {own : β} (hown : (l.find? b).map key = some own) :
    (l.find? fun x => a x || b x).map key = some own ↔
      ∀ other, (l.find? a).map key = some other →
        (l.map key).idxOf own ≤ (l.map key).idxOf other := by
  induction l with
  | nil => cases hown
  | cons x l ih =>
    rw [List.map_cons, List.nodup_cons] at hnodup
    obtain ⟨hx, hnodup⟩ := hnodup
    have hmem : ∀ {test : α → Bool} {p}, (l.find? test).map key = some p → p ∈ l.map key := by
      intro test p hp
      obtain ⟨y, hy, rfl⟩ := Option.map_eq_some_iff.1 hp
      exact List.mem_map_of_mem (List.mem_of_find?_eq_some hy)
    have hnext : ∀ {p}, p ∈ l.map key → (key x :: l.map key).idxOf p = (l.map key).idxOf p + 1 := by
      intro p hp
      refine List.idxOf_cons_ne _ ?_
      rintro rfl
      exact hx hp
    rw [List.find?_cons] at hown
    rw [List.map_cons, List.find?_cons]
    cases hb : b x with
    | true =>
      rw [hb] at hown
      obtain rfl : key x = own := Option.some.inj hown
      rw [Bool.or_true, List.idxOf_cons_self]
      exact iff_of_true rfl fun _ _ => Nat.zero_le _
    | false =>
      rw [hb] at hown
      have hlater := hmem hown
      rw [Bool.or_false, List.find?_cons]
      cases ha : a x with
      | true =>
        refine iff_of_false ?_ fun hall => ?_
        · rintro ⟨⟩
          exact hx hlater
        · have hle := hall (key x) rfl
          rw [hnext hlater, List.idxOf_cons_self] at hle
          exact absurd hle (Nat.not_succ_le_zero _)
      | false =>
        dsimp only
        rw [ih hnodup hown, hnext hlater]
        refine forall₂_congr fun other hother => ?_
        rw [hnext (hmem hother), Nat.add_le_add_iff_right]

end TaskDesk
