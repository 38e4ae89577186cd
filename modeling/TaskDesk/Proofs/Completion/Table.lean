import TaskDesk.Completion.Apply
import TaskDesk.Proofs.Phrase.Marks

/-!
# Tables of keywords

The keywords of a table are cut from a text, or counted in it, one keyword after the
other, longer ones first. In a table where no keyword ends with a word that a keyword has
before its last one, a keyword at the end of a text takes away nothing that is counted
before it, and it counts once, alone or as the end of a longer keyword.

Results:
* `IsTable.absent_strip`: when all keywords are cut, none of them is left.
* `IsTable.countAll_append_keyword`: one more keyword at the end of a text.
* `IsTable.strip_append_keyword`: where it is the only one, it is cut alone.
-/

namespace TaskDesk
namespace Completion

open Phrase
open Text (fold words)

/-! ## Cutting and counting -/

/-- The text without the keywords, cut one keyword after the other. -/
def strip (ks : List Text) (t : Text) : Text := ks.foldl (fun t k => (keyword k).eraseAll t) t

/-- How often the keywords occur in the text. They are counted one keyword after the other,
    and what has been counted is marked, so that it does not count as part of a keyword
    that comes later. -/
def countAll : (ks : List Text) → Text → Nat
  | [], _ => 0
  | k :: ks, t => (keyword k).count t + countAll ks (markAll (keyword k) t)

theorem pairwise_insertByLength {t : Text} {ts : List Text}
    (h : ts.Pairwise fun s u => u.length ≤ s.length) :
    (insertByLength t ts).Pairwise fun s u => u.length ≤ s.length := by
  induction ts with
  | nil => simp [insertByLength]
  | cons u ts ih =>
    obtain ⟨hu, hts⟩ := List.pairwise_cons.1 h
    rw [insertByLength]
    split
    · rename_i hle
      refine List.pairwise_cons.2 ⟨fun s hs => ?_, h⟩
      rcases List.mem_cons.1 hs with rfl | hs
      · exact hle
      · exact (hu s hs).trans hle
    · rename_i hlt
      refine List.pairwise_cons.2 ⟨fun s hs => ?_, ih hts⟩
      rcases (mem_insertByLength s t ts).1 hs with rfl | hs
      · omega
      · exact hu s hs

theorem pairwise_longestFirst (ts : List Text) :
    (longestFirst ts).Pairwise fun s u => u.length ≤ s.length := by
  induction ts with
  | nil => exact .nil
  | cons t ts ih => exact pairwise_insertByLength ih

/-! ## Tables -/

/-- Keywords begin and end with a word, have single characters between their words, and
    end with no word that a keyword has before its last one. -/
structure IsTable (table : List Text) : Prop where
  first : ∀ k ∈ table, k.head?.any isWord = true
  last : ∀ k ∈ table, k.getLast?.any isWord = true
  tight : ∀ k ∈ table, ∀ n ≤ k.length,
    (k.take n).getLast?.any isWord = true ∨ (k.drop n).head?.any isWord = true
  inner : ∀ k ∈ table, ∀ w ∈ (words k).dropLast, ∀ k' ∈ table, (words k').getLast? ≠ some w

/-- No keyword of the table ends with a word of the text. -/
def Inert (table : List Text) (t : Text) : Prop :=
  ∀ k ∈ table, ∀ w ∈ (words k).getLast?, w ∉ (words t).map fold

theorem inert_of_not_word {table : List Text} {t : Text} (h : ∀ c ∈ t, isWord c = false) :
    Inert table t := by
  intro k hk w hw hmem
  rw [words, Text.runs_eq_nil h] at hmem
  cases hmem

namespace IsTable

variable {table ks : List Text} {k s t : Text}

theorem reads (h : IsTable table) (hk : k ∈ table) :
    ReadsSized (keyword k) (fold · = k) k.length :=
  ⟨readsWords_keyword (h.first k hk) (h.last k hk), fun piece hpiece => by
    rw [← hpiece, Text.length_fold]⟩

theorem isTight (h : IsTable table) (hk : k ∈ table) : Tight (fold · = k) := by
  rintro piece x y rfl rfl
  have hsplit := h.tight _ hk x.length (by simp [Text.length_fold])
  rw [Text.fold_append, List.take_left' (Text.length_fold x),
    List.drop_left' (Text.length_fold x), Text.getLast?_fold, Text.head?_fold] at hsplit
  exact hsplit

/-! ## Cutting all keywords -/

theorem absent_strip_of_absent (h : IsTable table) (hks : ∀ k ∈ ks, k ∈ table) (hk : k ∈ table)
    (hnone : Absent (fold · = k) t) : Absent (fold · = k) (strip ks t) := by
  induction ks generalizing t with
  | nil => exact hnone
  | cons k' ks ih =>
    refine ih (fun k hk => hks k (List.mem_cons_of_mem _ hk)) ?_
    exact (h.reads (hks k' List.mem_cons_self)).absent_eraseAll (h.reads hk).toWordEnds
      (h.isTight hk) fun o ho => absurd ho (hnone o)

/-- **When all keywords are cut, none of them is left.** -/
theorem absent_strip (h : IsTable table) (hks : ∀ k ∈ ks, k ∈ table) (hk : k ∈ ks) :
    Absent (fold · = k) (strip ks t) := by
  induction ks generalizing t with
  | nil => cases hk
  | cons k' ks ih =>
    have hks' : ∀ k ∈ ks, k ∈ table := fun k hk => hks k (List.mem_cons_of_mem _ hk)
    rcases List.mem_cons.1 hk with rfl | hk
    · have hread := h.reads (hks k List.mem_cons_self)
      show Absent _ (strip ks _)
      exact h.absent_strip_of_absent hks' (hks k List.mem_cons_self)
        (hread.absent_eraseAll hread.toWordEnds (h.isTight (hks k List.mem_cons_self))
          fun o ho => ho.piece)
    · exact ih hks' hk

theorem strip_of_absent (h : IsTable table) (hks : ∀ k ∈ ks, k ∈ table)
    (hnone : ∀ k ∈ ks, Absent (fold · = k) t) : strip ks t = t := by
  induction ks with
  | nil => rfl
  | cons k ks ih =>
    have hread := h.reads (hks k List.mem_cons_self)
    rw [strip, List.foldl_cons, hread.eraseAll_of_absent (hnone k List.mem_cons_self)]
    exact ih (fun k hk => hks k (List.mem_cons_of_mem _ hk))
      fun k hk => hnone k (List.mem_cons_of_mem _ hk)

/-! ## Counting -/

/-- How a keyword counts that leaves the right part of a text alone, or marks in it. -/
theorem countAll_cons_of_marks {ms : List (Option CodePoint)}
    (hmarks : (keyword k).marks s = (keyword k).marks t ++ ms) :
    countAll (k :: ks) s = (keyword k).count t + ms.count none +
      countAll ks (markAll (keyword k) t ++ ms.map (·.getD '\u0000')) := by
  rw [countAll, count_eq_marks, markAll, hmarks, List.count_append, List.map_append]
  rfl

/-- Nothing is counted exactly where no keyword occurs. -/
theorem countAll_eq_zero_iff (h : IsTable table) (hks : ∀ k ∈ ks, k ∈ table) :
    countAll ks t = 0 ↔ ∀ k ∈ ks, (keyword k).occursIn t = false := by
  induction ks with
  | nil => simp [countAll]
  | cons k ks ih =>
    have hread := h.reads (hks k List.mem_cons_self)
    rw [List.forall_mem_cons, occursIn]
    cases hfind : (keyword k).find? t with
    | none =>
      have hmarks : (keyword k).marks t = t.map some := markFrom_of_none hfind
      have hsame : markAll (keyword k) t = t := by rw [markAll, hmarks, map_getD_some]
      rw [countAll, hread.count_of_absent (hread.find?_eq_none_iff.1 hfind), hsame, Nat.zero_add,
        ih fun k hk => hks k (List.mem_cons_of_mem _ hk)]
      simp
    | some o =>
      obtain ⟨ho, -⟩ := hread.stands_of_find? hfind
      obtain ⟨kept, -, hmarks⟩ := markFrom_of_some hfind (hread.ne_nil ho.piece)
      have hcount : (keyword k).count t ≠ 0 := by
        rw [count, hmarks, List.count_append, List.count_cons_self]
        omega
      rw [countAll]
      simp [hcount]

/-- What can be the end of no keyword does not count at the end of a text. -/
theorem countAll_append_inert (h : IsTable table) (hks : ∀ k ∈ ks, k ∈ table)
    (ht : Inert table t) (hseam : Text.Apart isWord s t) : countAll ks (s ++ t) = countAll ks s := by
  induction ks generalizing s with
  | nil => rfl
  | cons k ks ih =>
    have hk : k ∈ table := hks k List.mem_cons_self
    have hmarks : (keyword k).marks (s ++ t) = (keyword k).marks s ++ t.map some := by
      refine (h.reads hk).marks_append hseam fun o ho => ?_
      obtain ⟨r, -, hafter⟩ := ho.in_left (h.reads hk).toWordEnds hseam fun piece hpiece => by
        rw [words_of_fold hpiece]
        exact ht k hk
      rw [hafter, List.length_append]
      omega
    rw [countAll_cons_of_marks hmarks, count_none_map_some, map_getD_some, countAll,
      ih (fun k hk => hks k (List.mem_cons_of_mem _ hk)) fun hlast => hseam (getLast?_markAll hlast)]
    rfl

/-! ## One more keyword -/

variable {k' gap piece tail : Text}

/-- A keyword that stands in a text with a keyword at its end stands before that one, or
    ends where that one ends. -/
theorem stands_cases (h : IsTable table) (hk : k ∈ table) (hk' : k' ∈ table)
    (hpiece : fold piece = k) (hs : s.getLast?.any isWord = false)
    (htail : ∀ c ∈ tail, isWord c = false) {o : Occurrence}
    (ho : Stands (fold · = k') (s ++ (piece ++ tail)) o) :
    (∃ r, s = o.before ++ o.piece ++ r ∧ o.after = r ++ (piece ++ tail)) ∨
      (o.before ++ o.piece = s ++ piece ∧ o.after = tail) := by
  have hlast : piece.getLast?.any isWord = true := by
    rw [← Text.getLast?_fold, hpiece]
    exact h.last k hk
  rw [← List.append_assoc] at ho
  refine (ho.in_left_or_at_end (h.reads hk').toWordEnds hs hlast htail ?_).imp_right
    fun ⟨hbefore, hafter, _⟩ => ⟨hbefore, hafter⟩
  intro piece' hpiece'
  rw [words_of_fold hpiece', words_of_fold hpiece]
  exact fun w hlast hw => h.inner k hk w hw k' hk' hlast

/-- A keyword that ends where the one at the end of a text ends, and is as long. -/
theorem ends_together (hpiece : fold piece = k) (hlength : k.length ≤ k'.length) {o : Occurrence}
    (ho : Stands (fold · = k') (s ++ (piece ++ tail)) o) (hafter : o.after = tail) :
    o.before ++ o.piece = s ++ piece ∧ piece.length ≤ o.piece.length := by
  constructor
  · have htext := ho.text
    rw [hafter, ← List.append_assoc s] at htext
    exact List.append_cancel_right htext
  · rwa [← Text.length_fold piece, ← Text.length_fold o.piece, hpiece, ho.piece]

/-- A keyword at the end of a text is marked. -/
theorem marks_append_self (h : IsTable table) (hk : k ∈ table) (hpiece : fold piece = k)
    (hs : s.getLast?.any isWord = false) (htail : ∀ c ∈ tail, isWord c = false) :
    (keyword k).marks (s ++ (piece ++ tail)) = (keyword k).marks s ++ none :: tail.map some := by
  refine (h.reads hk).marks_append_piece hpiece hs (Text.head?_of_forall htail) fun o ho => ?_
  rcases h.stands_cases hk hk hpiece hs htail ho with ⟨r, -, hafter⟩ | ⟨-, hafter⟩
  · refine .inl ?_
    rw [hafter]
    simp only [List.length_append]
    omega
  · exact .inr hafter

theorem eraseAll_append_self (h : IsTable table) (hk : k ∈ table) (hpiece : fold piece = k)
    (hs : s.getLast?.any isWord = false) (htail : ∀ c ∈ tail, isWord c = false) :
    (keyword k).eraseAll (s ++ (piece ++ tail)) = (keyword k).eraseAll s ++ tail := by
  rw [eraseAll_eq_marks, h.marks_append_self hk hpiece hs htail, List.filterMap_append,
    ← eraseAll_eq_marks]
  simp

/-- A keyword that does not end where the one at the end of a text does marks nothing there. -/
theorem marks_append_other (h : IsTable table) (hk : k ∈ table) (hk' : k' ∈ table)
    (hpiece : fold piece = k) (hgap : ∀ c ∈ gap, isWord c = false)
    (hbreak : (t ++ gap).getLast?.any isWord = false) (htail : ∀ c ∈ tail, isWord c = false)
    (hnone : ∀ o, Stands (fold · = k') (t ++ gap ++ (piece ++ tail)) o → o.after ≠ tail) :
    (keyword k').marks (t ++ gap ++ (piece ++ tail)) =
      (keyword k').marks t ++ (gap ++ (piece ++ tail)).map some := by
  have hseam : Text.Apart isWord t (gap ++ (piece ++ tail)) := by
    cases gap with
    | nil => exact Text.apart_of_last (by simpa using hbreak)
    | cons c gap => exact Text.apart_of_head (hgap c List.mem_cons_self)
  rw [List.append_assoc] at hnone ⊢
  refine (h.reads hk').marks_append hseam fun o ho => ?_
  have ho' := ho
  rw [← List.append_assoc] at ho'
  rcases h.stands_cases hk hk' hpiece hbreak htail ho' with ⟨r, hr, hafter⟩ | ⟨-, hafter⟩
  · rcases List.append_eq_append_iff.1 hr with ⟨y, hy, rfl⟩ | ⟨x, -, rfl⟩
    · have hlast := Text.getLast?_append_any (s := o.before) ((h.reads hk').last _ ho.piece)
      rw [hy] at hlast
      obtain rfl := eq_nil_of_last hlast fun c hc => hgap c (List.mem_append_left _ hc)
      rw [hafter]
      exact Nat.le_refl _
    · rw [hafter]
      simp only [List.length_append]
      omega
  · exact absurd hafter (hnone o ho)

/-- A keyword that is as long as the one at the end of a text, and stands there, too, begins
    where that one does, or before it, in front of what can be the end of no keyword. -/
theorem inert_of_longer (h : IsTable table) {before piece' : Text}
    (hgap : ∀ c ∈ gap, isWord c = false) (hbreak : (t ++ gap).getLast?.any isWord = false)
    (hlast : piece.getLast?.any isWord = true) (hpiece' : fold piece' ∈ table)
    (hlength : piece.length ≤ piece'.length) (htext : before ++ piece' = t ++ gap ++ piece) :
    before = t ++ gap ∨ ∃ r, t = before ++ r ∧ Inert table r := by
  obtain ⟨y, hy, rfl⟩ := exists_of_append_eq htext hlength
  rcases List.append_eq_append_iff.1 hy with ⟨x, rfl, rfl⟩ | ⟨r, rfl, rfl⟩
  · -- The gap goes over into the longer keyword, but belongs to no word.
    cases y with
    | nil => exact .inl (by simp)
    | cons c y =>
      have hfirst := h.first _ hpiece'
      rw [Text.head?_fold] at hfirst
      exact absurd hfirst (by simp [hgap c (by simp)])
  · refine .inr ⟨r, rfl, fun k hk w hw hmem => h.inner _ hpiece' w ?_ k hk hw⟩
    have hseam : Text.Apart isWord (r ++ gap) piece := by
      rw [List.append_assoc] at hbreak
      exact Text.apart_of_last (Text.getLast?_right hbreak)
    have hwords : words (r ++ gap ++ piece) = words r ++ words piece := by
      have hcut : words (r ++ gap) = words r ++ words gap :=
        Text.runs_append (Text.apart_of_head (Text.head?_of_forall hgap))
      have hnone : words gap = [] := Text.runs_eq_nil hgap
      rw [hnone, List.append_nil] at hcut
      rw [← hcut]
      exact Text.runs_append hseam
    rw [Text.words_fold, hwords, List.map_append, List.dropLast_append_of_ne_nil]
    · exact List.mem_append_left _ hmem
    · simpa using words_ne_nil_of_last hlast

/-- A keyword that takes the end of a text counts once, and the part of the text before the
    gap that it takes, too, counts nothing. -/
theorem countAll_of_end (h : IsTable table) (hks : ∀ k ∈ k' :: ks, k ∈ table) (hk : k ∈ table)
    (hpiece : fold piece = k) (hgap : ∀ c ∈ gap, isWord c = false)
    (hbreak : (t ++ gap).getLast?.any isWord = false) (htail : ∀ c ∈ tail, isWord c = false)
    (hle : k.length ≤ k'.length) {o : Occurrence}
    (ho : Stands (fold · = k') (t ++ gap ++ (piece ++ tail)) o) (hafter : o.after = tail) :
    countAll (k' :: ks) (t ++ gap ++ (piece ++ tail)) = countAll (k' :: ks) t + 1 := by
  have hk' : k' ∈ table := hks k' List.mem_cons_self
  obtain ⟨htext, hlength⟩ := ends_together hpiece hle ho hafter
  have hlast : piece.getLast?.any isWord = true := by
    rw [← Text.getLast?_fold, hpiece]
    exact h.last k hk
  have hsame : countAll (k' :: ks) o.before = countAll (k' :: ks) t := by
    rcases h.inert_of_longer hgap hbreak hlast (ho.piece ▸ hk') hlength htext with
      hbefore | ⟨r, rfl, hr⟩
    · rw [hbefore]
      exact h.countAll_append_inert hks (inert_of_not_word hgap)
        (Text.apart_of_head (Text.head?_of_forall hgap))
    · exact (h.countAll_append_inert hks hr (Text.apart_of_last ho.before)).symm
  have hmark : ∀ c ∈ ('\u0000' :: tail : Text), isWord c = false := by
    intro c hc
    rcases List.mem_cons.1 hc with rfl | hc
    · decide
    · exact htail c hc
  have hrest : countAll ks (markAll (keyword k') o.before ++ ('\u0000' :: tail : Text)) =
      countAll ks (markAll (keyword k') o.before) :=
    h.countAll_append_inert (fun k hk => hks k (List.mem_cons_of_mem _ hk))
      (inert_of_not_word hmark) (Text.apart_of_head (Text.head?_of_forall hmark))
  rw [← List.append_assoc, ← htext, List.append_assoc,
    countAll_cons_of_marks (h.marks_append_self hk' ho.piece ho.before htail),
    List.count_cons_self, count_none_map_some, List.map_cons, map_getD_some, Option.getD_none,
    hrest, ← hsame, countAll]
  omega

/-- **One more keyword.** A keyword at the end of a text, behind characters that belong to
    no word, counts once, whatever is before it. -/
theorem countAll_append_keyword (h : IsTable table) (hks : ∀ k ∈ ks, k ∈ table)
    (hsorted : ks.Pairwise fun k k' => k'.length ≤ k.length) (hk : k ∈ ks)
    (hpiece : fold piece = k) (hgap : ∀ c ∈ gap, isWord c = false)
    (hbreak : (t ++ gap).getLast?.any isWord = false) (htail : ∀ c ∈ tail, isWord c = false) :
    countAll ks (t ++ gap ++ (piece ++ tail)) = countAll ks t + 1 := by
  induction ks generalizing t with
  | nil => cases hk
  | cons k' ks ih =>
    obtain ⟨hlonger, hsorted'⟩ := List.pairwise_cons.1 hsorted
    by_cases hhit : ∃ o, Stands (fold · = k') (t ++ gap ++ (piece ++ tail)) o ∧ o.after = tail
    · obtain ⟨o, ho, hafter⟩ := hhit
      have hle : k.length ≤ k'.length := by
        rcases List.mem_cons.1 hk with rfl | hk
        · exact Nat.le_refl _
        · exact hlonger k hk
      exact h.countAll_of_end hks (hks k hk) hpiece hgap hbreak htail hle ho hafter
    · -- The keyword at the end is left for later.
      have hne : k ∈ ks := by
        refine (List.mem_cons.1 hk).resolve_left ?_
        rintro rfl
        exact hhit ⟨⟨t ++ gap, piece, tail⟩,
          ⟨List.append_assoc _ _ _, hpiece, hbreak, Text.head?_of_forall htail⟩, rfl⟩
      have hbreak' : (markAll (keyword k') t ++ gap).getLast?.any isWord = false := by
        rw [List.getLast?_append] at hbreak ⊢
        cases hend : gap.getLast? with
        | none =>
          rw [hend, Option.none_or] at hbreak
          rw [Option.none_or, Bool.eq_false_iff]
          exact fun hword => absurd (getLast?_markAll hword) (by simp [hbreak])
        | some c => rwa [hend] at hbreak
      rw [countAll_cons_of_marks (h.marks_append_other (hks k hk) (hks k' List.mem_cons_self) hpiece
          hgap hbreak htail fun o ho hafter => hhit ⟨o, ho, hafter⟩),
        count_none_map_some, map_getD_some, ← List.append_assoc,
        ih (fun k hk => hks k (List.mem_cons_of_mem _ hk)) hsorted' hne hbreak', countAll]
      omega

/-- **The only keyword.** Where no keyword stands before it, a keyword at the end of a text
    is cut, with what a longer keyword takes before it, and nothing else. -/
theorem strip_append_keyword (h : IsTable table) (hks : ∀ k ∈ ks, k ∈ table)
    (hsorted : ks.Pairwise fun k k' => k'.length ≤ k.length) (hk : k ∈ ks)
    (hpiece : fold piece = k) (hs : s.getLast?.any isWord = false)
    (hnone : ∀ k ∈ ks, Absent (fold · = k) s) (htail : ∀ c ∈ tail, isWord c = false) :
    ∃ before rest, s = before ++ rest ∧ before.getLast?.any isWord = false ∧
      strip ks (s ++ (piece ++ tail)) = before ++ tail := by
  induction ks with
  | nil => cases hk
  | cons k' ks ih =>
    obtain ⟨hlonger, hsorted'⟩ := List.pairwise_cons.1 hsorted
    have hk' : k' ∈ table := hks k' List.mem_cons_self
    have hks' : ∀ k ∈ ks, k ∈ table := fun k hk => hks k (List.mem_cons_of_mem _ hk)
    have hle : k.length ≤ k'.length := by
      rcases List.mem_cons.1 hk with rfl | hk
      · exact Nat.le_refl _
      · exact hlonger k hk
    have hnone' : ∀ k ∈ ks, Absent (fold · = k) s := fun k hk => hnone k (List.mem_cons_of_mem _ hk)
    rw [strip, List.foldl_cons]
    by_cases hhit : ∃ o, Stands (fold · = k') (s ++ (piece ++ tail)) o ∧ o.after = tail
    · obtain ⟨o, ho, hafter⟩ := hhit
      obtain ⟨htext, hlength⟩ := ends_together hpiece hle ho hafter
      obtain ⟨rest, rfl, -⟩ := exists_of_append_eq htext hlength
      have hleft : ∀ k ∈ k' :: ks, Absent (fold · = k) o.before := fun k hk =>
        (hnone k hk).of_front (h.reads (hks k hk)).toWordEnds ho.before
      refine ⟨o.before, rest, rfl, ho.before, ?_⟩
      rw [← List.append_assoc, ← htext, List.append_assoc,
        h.eraseAll_append_self hk' ho.piece ho.before htail,
        (h.reads hk').eraseAll_of_absent (hleft k' List.mem_cons_self)]
      exact h.strip_of_absent hks' fun k hk =>
        (hleft k (List.mem_cons_of_mem _ hk)).append (h.reads (hks' k hk)).toWordEnds htail
    · have hne : k ∈ ks := by
        refine (List.mem_cons.1 hk).resolve_left ?_
        rintro rfl
        exact hhit ⟨⟨s, piece, tail⟩, ⟨List.append_assoc _ _ _, hpiece, hs, Text.head?_of_forall htail⟩, rfl⟩
      have habsent : Absent (fold · = k') (s ++ (piece ++ tail)) := by
        intro o ho
        rcases h.stands_cases (hks k hk) hk' hpiece hs htail ho with ⟨r, hr, hafter⟩ | ⟨-, hafter⟩
        · exact hnone k' List.mem_cons_self _ (hr ▸ ho.cut_after hafter)
        · exact hhit ⟨o, ho, hafter⟩
      rw [(h.reads hk').eraseAll_of_absent habsent]
      exact ih hks' hsorted' hne hnone'

end IsTable
end Completion
end TaskDesk
