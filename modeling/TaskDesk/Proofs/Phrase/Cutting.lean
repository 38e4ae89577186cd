import TaskDesk.Proofs.Phrase.Marks

/-!
# Pieces that are cut out of a text

A cutting of a text tells which pieces are cut and what is kept between them. Where no word
goes across the ends of the pieces, the words of the text are those of its parts, and the
words of the rest are those of the parts that are kept: no two of them grow together.

Results:
* `Cutting.IsOf.around`: pieces that are cut out of both sides of a piece.
* `Cutting.words_whole`, `Cutting.words_rest`: the words of a text and of what is left of it.
* `ReadsSized.eraseAll_append`: pieces are cut part by part.
* `ReadsSized.getLast?_eraseAll`: the end of what is left.
-/

namespace TaskDesk
namespace Phrase

open Text (words)

/-- A text in parts: what is kept at its start, and pieces that are cut, each with what is
    kept behind it. -/
structure Cutting where
  front : Text
  cuts : List (Text × Text)

namespace Cutting

/-- The pieces and what is kept behind them. -/
def spread (cuts : List (Text × Text)) : Text := cuts.flatMap fun cut => cut.1 ++ cut.2

/-- What is kept behind the pieces. -/
def kept (cuts : List (Text × Text)) : Text := cuts.flatMap (·.2)

/-- The text that is cut. -/
def whole (c : Cutting) : Text := c.front ++ spread c.cuts

/-- What is left of the text. -/
def rest (c : Cutting) : Text := c.front ++ kept c.cuts

/-- The places of the pieces in the text, where `before` comes before the first of them. -/
def placesFrom (before : Text) : List (Text × Text) → List Occurrence
  | [] => []
  | (piece, behind) :: cuts =>
    ⟨before, piece, behind ++ spread cuts⟩ :: placesFrom (before ++ piece ++ behind) cuts

/-- The places of the pieces in the text. -/
def places (c : Cutting) : List Occurrence := placesFrom c.front c.cuts

/-! ## Two cuttings around a piece -/

/-- A piece between two texts is cut, and pieces are cut out of both. -/
def around (a : Cutting) (piece : Text) (b : Cutting) : Cutting :=
  ⟨a.front, a.cuts ++ (piece, b.front) :: b.cuts⟩

variable {a b c : Cutting} {piece : Text}

theorem whole_around : (a.around piece b).whole = a.whole ++ piece ++ b.whole := by
  simp [around, whole, spread]

theorem rest_around : (a.around piece b).rest = a.rest ++ b.rest := by
  simp [around, rest, kept]

theorem placesFrom_append (before : Text) (xs ys : List (Text × Text)) :
    placesFrom before (xs ++ ys) =
      (placesFrom before xs).map (fun o => { o with after := o.after ++ spread ys }) ++
        placesFrom (before ++ spread xs) ys := by
  induction xs generalizing before with
  | nil => simp [placesFrom, spread]
  | cons x xs ih =>
    rw [List.cons_append, placesFrom, placesFrom, ih]
    simp [spread]

theorem placesFrom_shift (s before : Text) (cuts : List (Text × Text)) :
    placesFrom (s ++ before) cuts =
      (placesFrom before cuts).map fun o => { o with before := s ++ o.before } := by
  induction cuts generalizing before with
  | nil => rfl
  | cons x cuts ih =>
    rw [placesFrom, placesFrom, List.map_cons, ← ih]
    simp

/-- A piece is cut out of the left text, or it is the one in between, or it is cut out of the
    right text. -/
theorem mem_places_around {o : Occurrence} :
    o ∈ (a.around piece b).places ↔
      (∃ o' ∈ a.places, o = { o' with after := o'.after ++ (piece ++ b.whole) }) ∨
      o = ⟨a.whole, piece, b.whole⟩ ∨
      ∃ o' ∈ b.places, o = { o' with before := a.whole ++ piece ++ o'.before } := by
  have hcuts : spread ((piece, b.front) :: b.cuts) = piece ++ b.whole := by simp [spread, whole]
  have hplaces : (a.around piece b).places =
      a.places.map (fun o => { o with after := o.after ++ (piece ++ b.whole) }) ++
        ⟨a.whole, piece, b.whole⟩ ::
          b.places.map fun o => { o with before := a.whole ++ piece ++ o.before } := by
    rw [places, around, placesFrom_append, hcuts, placesFrom, placesFrom_shift]
    rfl
  simp only [hplaces, List.mem_append, List.mem_map, List.mem_cons, eq_comm]

/-- The pieces are of a class, and no word of the whole text goes across their ends. -/
def IsOf (R : Text → Prop) (c : Cutting) : Prop := ∀ o ∈ c.places, Stands R c.whole o

theorem IsOf.mono {R S : Text → Prop} (h : c.IsOf R) (hsub : ∀ piece, R piece → S piece) :
    c.IsOf S :=
  fun o ho => ⟨(h o ho).text, hsub _ (h o ho).piece, (h o ho).before, (h o ho).after⟩

theorem IsOf.around {R : Text → Prop} (hR : WordEnds R) (ha : a.IsOf R) (hb : b.IsOf R)
    (hpiece : R piece) (hbefore : a.whole.getLast?.any isWord = false)
    (hafter : b.whole.head?.any isWord = false) : (a.around piece b).IsOf R := by
  intro o ho
  rw [whole_around]
  rcases mem_places_around.1 ho with ⟨o', ho', rfl⟩ | rfl | ⟨o', ho', rfl⟩
  · rw [List.append_assoc]
    exact (ha o' ho').of_front hR hbefore
  · exact ⟨rfl, hpiece, hbefore, hafter⟩
  · exact (hb o' ho').of_back hR hafter

/-! ## Words -/

/-- No word goes across the ends of the pieces. -/
def IsApart (c : Cutting) : Prop :=
  ∀ o ∈ c.places, o.before.getLast?.any isWord = false ∧ o.after.head?.any isWord = false

theorem IsOf.isApart {R : Text → Prop} (h : c.IsOf R) : c.IsApart :=
  fun o ho => ⟨(h o ho).before, (h o ho).after⟩

theorem isApart_cons {front behind : Text} {cuts : List (Text × Text)} :
    IsApart ⟨front, (piece, behind) :: cuts⟩ ↔
      (front.getLast?.any isWord = false ∧ (behind ++ spread cuts).head?.any isWord = false) ∧
        IsApart ⟨front ++ piece ++ behind, cuts⟩ :=
  List.forall_mem_cons

/-- What is kept behind a piece does not begin with a word. -/
theorem IsApart.behind (h : c.IsApart) : ∀ cut ∈ c.cuts, cut.2.head?.any isWord = false := by
  obtain ⟨front, cuts⟩ := c
  induction cuts generalizing front with
  | nil => simp
  | cons cut cuts ih =>
    obtain ⟨⟨-, hafter⟩, hnext⟩ := isApart_cons.1 h
    exact List.forall_mem_cons.2 ⟨Text.head?_left hafter, ih _ hnext⟩

/-- **The words of a text** are those of its parts. -/
theorem words_whole (h : c.IsApart) :
    words c.whole = words c.front ++ c.cuts.flatMap fun cut => words cut.1 ++ words cut.2 := by
  obtain ⟨front, cuts⟩ := c
  induction cuts generalizing front with
  | nil => simp [whole, spread]
  | cons cut cuts ih =>
    obtain ⟨piece, behind⟩ := cut
    obtain ⟨⟨hbefore, hafter⟩, hnext⟩ := isApart_cons.1 h
    have hparts : words (front ++ piece ++ behind) = words front ++ words piece ++ words behind := by
      rw [words, Text.runs_append (Text.apart_of_head (Text.head?_left hafter)),
        Text.runs_append (Text.apart_of_last hbefore)]
      rfl
    have hwhole := ih _ hnext
    rw [hparts] at hwhole
    simpa [whole, spread] using hwhole

/-- **The words of the rest** are those of the parts that are kept. -/
theorem words_rest (h : c.IsApart) :
    words c.rest = words c.front ++ c.cuts.flatMap fun cut => words cut.2 := by
  -- Without the pieces the parts are no cutting of the rest, but they are still kept apart.
  have hbehind := h.behind
  clear h
  obtain ⟨front, cuts⟩ := c
  induction cuts generalizing front with
  | nil => simp [rest, kept]
  | cons cut cuts ih =>
    obtain ⟨hcut, hcuts⟩ := List.forall_mem_cons.1 hbehind
    have hparts : words (front ++ cut.2) = words front ++ words cut.2 :=
      Text.runs_append (Text.apart_of_head hcut)
    have hrest := ih (front ++ cut.2) hcuts
    rw [hparts] at hrest
    simpa [rest, kept] using hrest

/-- Characters that no piece has are kept in their order. -/
theorem filter_rest {p : CodePoint → Bool} (h : ∀ o ∈ c.places, ∀ d ∈ o.piece, p d = false) :
    c.rest.filter p = c.whole.filter p := by
  obtain ⟨front, cuts⟩ := c
  induction cuts generalizing front with
  | nil => rfl
  | cons cut cuts ih =>
    obtain ⟨piece, behind⟩ := cut
    have hpiece : piece.filter p = [] := List.filter_eq_nil_iff.2 fun d hd =>
      Bool.eq_false_iff.1 (h _ List.mem_cons_self d hd)
    have hnext := ih (front ++ piece ++ behind) fun o ho => h o (List.mem_cons_of_mem _ ho)
    simpa [rest, whole, kept, spread, hpiece] using hnext

end Cutting

/-! ## Cutting part by part -/

namespace ReadsSized

variable {phrase : Phrase} {R : Text → Prop} {size : Nat} {s t : Text}

/-- No piece goes across a place that belongs to no word on either side, so the pieces are
    cut on both sides of it for themselves. -/
theorem eraseAll_append (h : ReadsSized phrase R size) (htight : Tight R)
    (hs : s.getLast?.any isWord = false) (ht : t.head?.any isWord = false) :
    phrase.eraseAll (s ++ t) = phrase.eraseAll s ++ phrase.eraseAll t := by
  have hcut : phrase.marks (s ++ t) = phrase.marks s ++ phrase.marks t := by
    rw [marks, h.markFrom_append (Text.apart_of_last hs), h.markFrom_of_apart ht]
    · rfl
    · intro o ho _ hlt
      rcases ho.front_or_back htight hs ht with ⟨r, -, hafter⟩ | ⟨x, hbefore, -⟩
      · rw [hafter, List.length_append]
        omega
      · rw [hbefore, List.length_append, List.length_nil] at hlt
        omega
  rw [eraseAll_eq_marks, hcut, List.filterMap_append, ← eraseAll_eq_marks, ← eraseAll_eq_marks]

theorem getLast?_eraseAll (h : ReadsSized phrase R size) (ht : t.getLast?.any isWord = false) :
    (phrase.eraseAll t).getLast?.any isWord = false := by
  induction hn : t.length using Nat.strong_induction_on generalizing t with
  | _ n ih =>
  subst hn
  cases hfind : phrase.find? t with
  | none => rwa [h.eraseAll_of_absent (h.find?_eq_none_iff.1 hfind)]
  | some o =>
    obtain ⟨ho, -⟩ := h.stands_of_find? hfind
    obtain rfl := ho.text
    have hpos : 0 < o.piece.length := List.length_pos_iff.2 (h.ne_nil ho.piece)
    have hrest := ih o.after.length (by simp only [List.length_append]; omega)
      (Text.getLast?_right ht) rfl
    rw [h.eraseAll_of_find? hfind, List.getLast?_append]
    cases hlast : (phrase.eraseAll o.after).getLast? with
    | none => exact ho.before
    | some c => rwa [hlast] at hrest

end ReadsSized
end Phrase
end TaskDesk
