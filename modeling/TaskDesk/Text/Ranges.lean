/-!
# Tables of code point ranges

A property of characters is a table of disjoint ranges of code points, in
increasing order, each with a label. `RangeTree` is such a table as a balanced
search tree.

Results:
* `RangeTree.find?_mem`: what is found is a range of the tree, and the offset
  is the distance from its first code point.
-/

namespace TaskDesk

/-- A search tree of labelled ranges of code points, ends included. -/
inductive RangeTree (α : Type) where
  | leaf
  | node (left : RangeTree α) (first last : Nat) (label : α) (right : RangeTree α)

namespace RangeTree

variable {α : Type}

/-- The range that holds `n`: the distance of `n` from its first code point, and
    its label. -/
def find? : RangeTree α → Nat → Option (Nat × α)
  | leaf, _ => none
  | node left first last label right, n =>
    if n < first then left.find? n
    else if n ≤ last then some (n - first, label)
    else right.find? n

/-- Whether some range holds `n`. -/
def contains (t : RangeTree α) (n : Nat) : Bool := (t.find? n).isSome

/-- A tree of at most `depth` levels made of the first ranges of the list, and
    the ranges that are left over. -/
def build : (depth : Nat) → List (Nat × Nat × α) → RangeTree α × List (Nat × Nat × α)
  | 0, ranges => (leaf, ranges)
  | depth + 1, ranges =>
    match build depth ranges with
    | (left, []) => (left, [])
    | (left, (first, last, label) :: more) =>
      let (right, more) := build depth more
      (node left first last label right, more)

/-- The tree of the first `2 ^ depth - 1` ranges of an increasing list. -/
def ofSorted (depth : Nat) (ranges : List (Nat × Nat × α)) : RangeTree α := (build depth ranges).1

/-- The ranges of a tree from left to right. -/
def toList : RangeTree α → List (Nat × Nat × α)
  | leaf => []
  | node left first last label right => left.toList ++ (first, last, label) :: right.toList

/-- Building neither loses nor reorders a range. -/
theorem toList_build (depth : Nat) (ranges : List (Nat × Nat × α)) :
    (build depth ranges).1.toList ++ (build depth ranges).2 = ranges := by
  induction depth generalizing ranges with
  | zero => rfl
  | succ depth ih =>
    have h := ih ranges
    unfold build
    split
    · rename_i left hl; rw [hl] at h; exact h
    · rename_i left first last label more hl
      rw [hl] at h
      have h' := ih more
      simp only [toList, List.append_assoc, List.cons_append]
      rw [h', h]

theorem find?_mem {t : RangeTree α} {n offset : Nat} {label : α}
    (h : t.find? n = some (offset, label)) :
    ∃ first last, (first, last, label) ∈ t.toList ∧ n ≤ last ∧ n = first + offset := by
  induction t with
  | leaf => simp [find?] at h
  | node left first last l right ihl ihr =>
    unfold find? at h
    split at h
    · obtain ⟨a, b, hm, hr⟩ := ihl h
      exact ⟨a, b, by simp [toList, hm], hr⟩
    · split at h
      · simp only [Option.some.injEq, Prod.mk.injEq] at h
        obtain ⟨rfl, rfl⟩ := h
        exact ⟨first, last, by simp [toList], by omega, by omega⟩
      · obtain ⟨a, b, hm, hr⟩ := ihr h
        exact ⟨a, b, by simp [toList, hm], hr⟩

end RangeTree
end TaskDesk
