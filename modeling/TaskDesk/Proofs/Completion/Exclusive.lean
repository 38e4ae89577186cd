import TaskDesk.Proofs.Completion.Table

/-!
# Keywords that exclude one another

A keyword that is chosen for a new task takes the place of all keywords of its category.
Cutting them leaves none, but the blanks around them are collapsed afterwards, and only
then a single space may stand between two words that make a keyword. The keyword that is
chosen comes on top of those.

Results:
* `Category.isTable`: the keywords of a category make a table.
* `Completion.exists_text_apply`: what a text consists of after a keyword has been chosen.
* `Completion.count_text_apply`: how many keywords of its category it holds.
-/

namespace TaskDesk

open Completion Phrase
open Text (fold)

namespace Category

theorem isTable (c : Category) : IsTable c.keywords := by
  have checked : ∀ k ∈ c.keywords, k.head?.any isWord = true ∧ k.getLast?.any isWord = true ∧
      (∀ n ≤ k.length, (k.take n).getLast?.any isWord = true ∨ (k.drop n).head?.any isWord = true) ∧
      ∀ w ∈ (Text.words k).dropLast, ∀ k' ∈ c.keywords, (Text.words k').getLast? ≠ some w := by
    cases c <;> decide +kernel
  exact ⟨fun k hk => (checked k hk).1, fun k hk => (checked k hk).2.1,
    fun k hk => (checked k hk).2.2.1, fun k hk => (checked k hk).2.2.2⟩

/-- The keywords of a category, longest first. -/
def table (c : Category) : List Text := longestFirst c.keywords

theorem mem_keywords_of_mem_table {c : Category} {k : Text} (hk : k ∈ c.table) : k ∈ c.keywords :=
  (mem_longestFirst k c.keywords).1 hk

/-- How many keywords of the category a text holds, longer ones before shorter ones. -/
def count (c : Category) (t : Text) : Nat := countAll c.table t

/-- Keywords are ASCII, so a text that is one in lower case is one when it is folded. -/
theorem fold_mem_table {c : Category} {t : Text} (h : ofKeyword? t = some c) : fold t ∈ c.table := by
  have ascii : ∀ k ∈ c.keywords, ∀ d ∈ k, d.toNat < 128 := by
    cases c <;> decide +kernel
  have hmem := mem_of_ofKeyword? h
  rw [Text.fold_eq_lower (ascii _ hmem)]
  exact (mem_longestFirst _ _).2 hmem

end Category

namespace Completion

variable {c : Category} {input chosen : Text}

theorem withoutKeywords_eq_strip (c : Category) (input : Text) :
    withoutKeywords c input = Text.trim (Text.collapse (strip c.table input)) := rfl

/-- The text consists of the tidied rest of the input, a gap, the keyword, and a space. -/
theorem exists_text_apply (input : Text) (h : Category.ofKeyword? chosen = some c)
    (names : List Text) :
    ∃ gap, (∀ d ∈ gap, isWord d = false) ∧
      (withoutKeywords c input ++ gap).getLast?.any isWord = false ∧
      (apply .create input chosen names).text =
        withoutKeywords c input ++ gap ++ (chosen ++ " ".toText) := by
  simp only [apply, h]
  split
  · rename_i hnil
    rw [List.isEmpty_iff.1 hnil]
    exact ⟨[], by simp, rfl, by simp⟩
  · refine ⟨" ".toText, by decide, ?_, by simp⟩
    rw [List.getLast?_append]
    show isWord ' ' = false
    decide

/-- **Exclusive keywords.** When the keywords of its category are cut for a keyword, none is
    left. After that the text holds one keyword more than what is left of it when its blanks
    are collapsed, and so a single one just where no keyword has come up there. -/
theorem count_text_apply (h : Category.ofKeyword? chosen = some c) (names : List Text) :
    c.count (strip c.table input) = 0 ∧
      c.count (apply .create input chosen names).text = c.count (withoutKeywords c input) + 1 ∧
      (c.count (apply .create input chosen names).text = 1 ↔
        ∀ k ∈ c.keywords, (keyword k).occursIn (withoutKeywords c input) = false) := by
  have hks : ∀ k ∈ c.table, k ∈ c.keywords := fun k => Category.mem_keywords_of_mem_table
  have hnone : c.count (strip c.table input) = 0 := by
    refine (c.isTable.countAll_eq_zero_iff hks).2 fun k hk => ?_
    rw [occursIn, ((c.isTable.reads (hks k hk)).find?_eq_none_iff).2 (c.isTable.absent_strip hks hk)]
    rfl
  have hmore : c.count (apply .create input chosen names).text =
      c.count (withoutKeywords c input) + 1 := by
    obtain ⟨gap, hgap, hbreak, htext⟩ := exists_text_apply input h names
    rw [htext]
    exact c.isTable.countAll_append_keyword hks (pairwise_longestFirst _) (Category.fold_mem_table h)
      rfl hgap hbreak (by decide)
  refine ⟨hnone, hmore, ?_⟩
  rw [hmore, Nat.add_eq_right, Category.count, c.isTable.countAll_eq_zero_iff hks]
  exact ⟨fun hall k hk => hall k ((mem_longestFirst k _).2 hk), fun hall k hk => hall k (hks k hk)⟩

theorem count_text_apply_rent :
    Category.ofKeyword? "Tomorrow".toText = some .date ∧
      Category.date.count (apply .create "rent next week".toText "Tomorrow".toText []).text = 1 :=
  ⟨by decide, ((count_text_apply (by decide) []).2.2).2 (by decide +kernel)⟩

/-- Two spaces keep the words of a keyword apart until the blanks are collapsed. -/
theorem count_text_apply_two_spaces :
    Category.ofKeyword? "tomorrow".toText = some .date ∧
      (apply .create "next  week".toText "tomorrow".toText []).text = "next week tomorrow ".toText ∧
      Category.date.count (apply .create "next  week".toText "tomorrow".toText []).text = 2 := by
  decide +kernel

end Completion
end TaskDesk
