import TaskDesk.Text.CodePoint

/-!
# Texts

A text is a list of code points, so that lengths, cuts and positions are all
counted in code points. This module holds the operations that need no
knowledge of single characters: search, splitting and joining, runs of a class,
trimming, removal of repetitions, and sizes in UTF-8. A text is encodable if
all its code points are characters; only such texts can be written in UTF-8.

Results:
* `contains_iff`: the substring test is the relation `<:+:`.
* `join_split`: joining undoes splitting.
* `runs_ne_nil`, `forall_of_mem_runs`: a run is non-empty and stays in its class.
* `mem_distinct`, `nodup_distinct`: dropping repetitions keeps the members and
  leaves no repetition.
* `isEncodable_toText`: a string of characters is an encodable text.
-/

namespace TaskDesk

/-- A text as the list of its code points. -/
abbrev Text := List CodePoint

end TaskDesk

/-- A string as a text. -/
def String.toText (s : String) : TaskDesk.Text := s.toList.map .char

namespace TaskDesk
namespace Text

/-! ## Characters -/

/-- Whether all code points of the text are characters. -/
def isEncodable (t : Text) : Bool := t.all CodePoint.isChar

theorem isEncodable_append (s t : Text) :
    isEncodable (s ++ t) = (isEncodable s && isEncodable t) := by
  simp [isEncodable]

theorem isEncodable_toText (s : String) : isEncodable s.toText = true := by
  simp [isEncodable, String.toText, CodePoint.isChar]

/-! ## Search -/

/-- Whether `needle` occurs in the text as one contiguous piece. -/
def contains (needle : Text) : Text → Bool
  | [] => needle.isEmpty
  | c :: rest => needle.isPrefixOf (c :: rest) || contains needle rest

theorem contains_iff (needle hay : Text) : contains needle hay = true ↔ needle <:+: hay := by
  induction hay with
  | nil => cases needle <;> simp [contains]
  | cons c rest ih =>
    simp only [contains, Bool.or_eq_true, List.isPrefixOf_iff_prefix, ih]
    exact List.infix_cons_iff.symm

/-! ## Pieces between separators -/

/-- The pieces between the separators of a text. There is always at least one,
    and two separators in a row have an empty piece between them. -/
def split (sep : CodePoint) : Text → List Text
  | [] => [[]]
  | c :: rest =>
    if c = sep then [] :: split sep rest
    else match split sep rest with
      | [] => [[c]]
      | piece :: more => (c :: piece) :: more

/-- The texts with one separator between each two. -/
def join (sep : CodePoint) : List Text → Text
  | [] => []
  | [t] => t
  | t :: more => t ++ sep :: join sep more

theorem split_ne_nil (sep : CodePoint) (t : Text) : split sep t ≠ [] := by
  cases t with
  | nil => simp [split]
  | cons c rest =>
    unfold split
    split
    · simp
    · split <;> simp

/-- Splitting loses nothing. -/
theorem join_split (sep : CodePoint) (t : Text) : join sep (split sep t) = t := by
  induction t with
  | nil => rfl
  | cons c rest ih =>
    unfold split
    split
    · rename_i h
      subst h
      cases hs : split c rest with
      | nil => exact absurd hs (split_ne_nil c rest)
      | cons piece more => rw [hs] at ih; simp [join, ih]
    · cases hs : split sep rest with
      | nil => exact absurd hs (split_ne_nil sep rest)
      | cons piece more =>
        rw [hs] at ih
        cases more with
        | nil => simp_all [join]
        | cons next more => simp only [join, List.cons_append] at ih ⊢; rw [ih]

/-! ## Runs of a class -/

/-- The maximal runs of characters that pass `test`, in order. -/
def runs (test : CodePoint → Bool) : Text → List Text
  | [] => []
  | c :: rest =>
    if test c then
      if rest.head?.any test then
        match runs test rest with
        | [] => [[c]]
        | run :: more => (c :: run) :: more
      else [c] :: runs test rest
    else runs test rest

theorem runs_ne_nil (test : CodePoint → Bool) (t : Text) : ∀ r ∈ runs test t, r ≠ [] := by
  induction t with
  | nil => simp [runs]
  | cons c rest ih =>
    unfold runs
    split
    · split
      · split
        · simp
        · rename_i run more h
          intro r hr
          rcases List.mem_cons.1 hr with rfl | hr
          · simp
          · exact ih r (h ▸ List.mem_cons_of_mem _ hr)
      · intro r hr
        rcases List.mem_cons.1 hr with rfl | hr
        · simp
        · exact ih r hr
    · exact ih

theorem forall_of_mem_runs (test : CodePoint → Bool) (t : Text) :
    ∀ r ∈ runs test t, ∀ c ∈ r, test c = true := by
  induction t with
  | nil => simp [runs]
  | cons c rest ih =>
    unfold runs
    split
    · rename_i hc
      split
      · split
        · simpa using hc
        · rename_i run more h
          intro r hr
          rcases List.mem_cons.1 hr with rfl | hr
          · intro d hd
            rcases List.mem_cons.1 hd with rfl | hd
            · exact hc
            · exact ih run (h ▸ List.mem_cons_self) d hd
          · exact ih r (h ▸ List.mem_cons_of_mem _ hr)
      · intro r hr
        rcases List.mem_cons.1 hr with rfl | hr
        · simpa using hc
        · exact ih r hr
    · exact ih

/-! ## Trimming -/

/-- The text without the characters that pass `test` at either end. -/
def trimBy (test : CodePoint → Bool) (t : Text) : Text :=
  ((t.dropWhile test).reverse.dropWhile test).reverse

/-! ## Repetitions -/

section Repetitions

variable {α : Type} [DecidableEq α]

/-- The list without the members that are already in `seen` or came earlier. -/
def distinctFrom (seen : List α) : List α → List α
  | [] => []
  | t :: rest => if t ∈ seen then distinctFrom seen rest else t :: distinctFrom (t :: seen) rest

/-- The list without later repetitions (`_unique`); first occurrences keep their order. -/
def distinct (ts : List α) : List α := distinctFrom [] ts

theorem mem_distinctFrom (t : α) (seen ts : List α) :
    t ∈ distinctFrom seen ts ↔ t ∈ ts ∧ t ∉ seen := by
  induction ts generalizing seen with
  | nil => simp [distinctFrom]
  | cons u rest ih => unfold distinctFrom; split <;> grind

theorem nodup_distinctFrom (seen ts : List α) : (distinctFrom seen ts).Nodup := by
  induction ts generalizing seen with
  | nil => simp [distinctFrom]
  | cons u rest ih =>
    unfold distinctFrom
    split
    · exact ih seen
    · exact List.nodup_cons.2 ⟨by simp [mem_distinctFrom], ih _⟩

theorem mem_distinct (t : α) (ts : List α) : t ∈ distinct ts ↔ t ∈ ts := by
  simp [distinct, mem_distinctFrom]

theorem nodup_distinct (ts : List α) : (distinct ts).Nodup := nodup_distinctFrom [] ts

end Repetitions

/-! ## Sizes and order -/

/-- The number of bytes of the text in UTF-8. -/
def utf8Size (t : Text) : Nat := t.foldl (fun n c => n + c.utf8Size) 0

/-- The order of texts by code point, which is also the order of their UTF-8
    bytes. -/
def precedes : Text → Text → Bool
  | [], _ => true
  | _ :: _, [] => false
  | c :: s, d :: t => if c = d then precedes s t else c.toNat < d.toNat

end Text
end TaskDesk
