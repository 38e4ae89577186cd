import TaskDesk.Proofs.Phrase.WordCut

/-!
# Pieces that stand in a text

Many phrases read the pieces of some class, and read them exactly where no word goes
across the ends of the piece. What such a phrase finds, cuts or counts in a text can then
be told from the pieces that stand there, without a look at how phrases are matched. Each
piece begins and ends with a word character, so it is never empty.

Results:
* `ReadsWords.find?_eq_none_iff`: nothing is found where no piece stands.
* `ReadsWords.eraseAll_of_absent`, `ReadsWords.count_of_absent`: then nothing is cut, and
  nothing counted.
* `ReadsWords.of_same_end`: where all pieces that stand in the text end at the same place,
  one of them is found, cut, and counted once.
-/

namespace TaskDesk
namespace Phrase

/-! ## Marks for occurrences -/

/-- The text after `before` with a mark in the place of each occurrence of the phrase.
    The first `skip` characters belong to an occurrence already met. -/
def markFrom (phrase : Phrase) : (before : Text) → (skip : Nat) → (after : Text) →
    List (Option CodePoint)
  | _, _, [] => []
  | before, skip + 1, c :: rest => markFrom phrase (c :: before) skip rest
  | before, 0, c :: rest =>
    match (phrase.ends ⟨before, c :: rest⟩).head? with
    | some q =>
      match (c :: rest).length - q.after.length with
      | 0 => some c :: markFrom phrase (c :: before) 0 rest
      | length + 1 => none :: markFrom phrase (c :: before) length rest
    | none => some c :: markFrom phrase (c :: before) 0 rest

/-- How often a phrase occurs in a text: occurrences that are not empty are found from
    left to right and do not overlap. -/
def count (phrase : Phrase) (t : Text) : Nat := (phrase.markFrom [] 0 t).count none

theorem count_none_map_some (t : Text) : (t.map some).count none = 0 :=
  List.count_eq_zero.2 (by simp)

/-- What is left of the text are the characters between the marks. -/
theorem eraseFrom_eq_markFrom (phrase : Phrase) (before : Text) (skip : Nat) (after : Text) :
    phrase.eraseFrom before skip after = (phrase.markFrom before skip after).filterMap id := by
  fun_induction markFrom phrase before skip after with
  | case1 => rfl
  | case2 before skip c rest ih => exact ih
  | case3 before c rest q hq hlength ih => rw [eraseFrom, hq]; dsimp only; rw [hlength, ih]; rfl
  | case4 before c rest q hq length hlength ih =>
    rw [eraseFrom, hq]; dsimp only; rw [hlength]; exact ih
  | case5 before c rest hq ih => rw [eraseFrom, hq, ih]; rfl

/-- What belongs to an occurrence already met is passed over. -/
theorem markFrom_skip (phrase : Phrase) (piece before after : Text) :
    phrase.markFrom before piece.length (piece ++ after) =
      phrase.markFrom (piece.reverse ++ before) 0 after := by
  induction piece generalizing before with
  | nil => rfl
  | cons c piece ih => simp [markFrom, ih]

/-- Where a piece is read there is a mark in its place. -/
theorem markFrom_of_read {phrase : Phrase} {before piece rest : Text} {q : Place} (hne : piece ≠ [])
    (hq : (phrase.ends ⟨before, piece ++ rest⟩).head? = some q) (hrest : q.after = rest) :
    phrase.markFrom before 0 (piece ++ rest) =
      none :: phrase.markFrom (piece.reverse ++ before) 0 rest := by
  cases piece with
  | nil => exact absurd rfl hne
  | cons c piece =>
    have hlength : (c :: (piece ++ rest)).length - q.after.length = piece.length + 1 := by
      rw [hrest]
      simp only [List.length_cons, List.length_append]
      omega
    rw [List.cons_append] at hq ⊢
    rw [markFrom, hq]
    dsimp only
    rw [hlength]
    dsimp only
    rw [markFrom_skip, List.reverse_cons, List.append_assoc, List.singleton_append]

/-- Where nothing is read the character is kept. -/
theorem markFrom_of_not_read {phrase : Phrase} {before rest : Text} {c : CodePoint}
    (h : ∀ q, q ∉ phrase.ends ⟨before, c :: rest⟩) :
    phrase.markFrom before 0 (c :: rest) = some c :: phrase.markFrom (c :: before) 0 rest := by
  rw [markFrom, List.eq_nil_iff_forall_not_mem.2 h]
  rfl

theorem markFrom_of_none {phrase : Phrase} {before after : Text}
    (h : phrase.findFrom before after = none) :
    phrase.markFrom before 0 after = after.map some := by
  induction after generalizing before with
  | nil => rfl
  | cons c rest ih =>
    unfold findFrom at h
    split at h
    · cases h
    · rename_i hq
      rw [markFrom, hq, ih h]
      rfl

/-- Up to the first occurrence, unless it is empty, the text is kept. A mark follows, and
    then what comes after the occurrence. -/
theorem markFrom_of_some {phrase : Phrase} {before after : Text} {o : Occurrence}
    (h : phrase.findFrom before after = some o) (hne : o.piece ≠ []) :
    ∃ kept, o.before = before.reverse ++ kept ∧
      phrase.markFrom before 0 after =
        kept.map some ++ none :: phrase.markFrom (o.piece.reverse ++ o.before.reverse) 0 o.after := by
  induction after generalizing before with
  | nil =>
    obtain ⟨q, -, rfl⟩ := Option.map_eq_some_iff.1 h
    exact absurd List.take_nil hne
  | cons c rest ih =>
    unfold findFrom at h
    split at h
    · rename_i q hq
      cases h
      obtain ⟨piece, hafter, -⟩ := reaches_of_mem_ends phrase (List.mem_of_head? hq)
      have hpiece : (between ⟨before, c :: rest⟩ q).piece = piece := by
        rw [between, hafter, List.length_append, Nat.add_sub_cancel, List.take_left]
      change c :: rest = piece ++ q.after at hafter
      rw [hafter] at hq
      rw [hpiece] at hne ⊢
      refine ⟨[], by simp [between], ?_⟩
      rw [hafter, markFrom_of_read hne hq rfl]
      simp [between]
    · rename_i hq
      obtain ⟨kept, hbefore, hmarks⟩ := ih h
      refine ⟨c :: kept, by simp [hbefore], ?_⟩
      rw [markFrom, hq]
      dsimp only
      rw [hmarks]
      rfl

/-! ## Pieces that stand in a text -/

/-- The piece of an occurrence is of a class, and no word goes across its ends. -/
structure Stands (R : Text → Prop) (t : Text) (o : Occurrence) : Prop where
  text : o.before ++ o.piece ++ o.after = t
  piece : R o.piece
  before : o.before.getLast?.any isWord = false
  after : o.after.head?.any isWord = false

/-- No piece of the class stands in the text. -/
def Absent (R : Text → Prop) (t : Text) : Prop := ∀ o, ¬ Stands R t o

/-- The pieces of a class begin and end with a word character. -/
structure WordEnds (R : Text → Prop) : Prop where
  first : ∀ piece, R piece → piece.head?.any isWord = true
  last : ∀ piece, R piece → piece.getLast?.any isWord = true

theorem WordEnds.ne_nil {R : Text → Prop} (h : WordEnds R) {piece : Text} (hpiece : R piece) :
    piece ≠ [] := by
  rintro rfl
  cases h.first [] hpiece

/-- The phrase reads the pieces of a class, which begin and end with a word character,
    where no word goes across their ends. -/
structure ReadsWords (phrase : Phrase) (R : Text → Prop) : Prop extends WordEnds R where
  mem_ends : ∀ p q, q ∈ phrase.ends p ↔
    ∃ piece, R piece ∧ p.after = piece ++ q.after ∧ q.before = piece.reverse ++ p.before ∧
      p.before.head?.any isWord = false ∧ q.after.head?.any isWord = false

namespace ReadsWords

variable {phrase : Phrase} {R : Text → Prop}

/-- A place where a piece stands is one where the phrase ends somewhere. -/
theorem exists_mem_ends (h : ReadsWords phrase R) {before after : Text} {o : Occurrence}
    (ho : Stands R (before.reverse ++ after) o) (hbefore : o.before.length = before.length) :
    ∃ q, q ∈ phrase.ends ⟨before, after⟩ := by
  have htext := ho.text
  rw [List.append_assoc] at htext
  obtain ⟨hsame, hafter⟩ := List.append_inj htext (by simpa using hbefore)
  refine ⟨⟨o.piece.reverse ++ before, o.after⟩, (h.mem_ends _ _).2 ?_⟩
  refine ⟨o.piece, ho.piece, hafter.symm, rfl, ?_, ho.after⟩
  have hword := ho.before
  rwa [hsame, List.getLast?_reverse] at hword

theorem stands_between (h : ReadsWords phrase R) {p q : Place} (hq : q ∈ phrase.ends p) :
    Stands R (p.before.reverse ++ p.after) (between p q) := by
  obtain ⟨piece, hpiece, hafter, -, hbefore, hend⟩ := (h.mem_ends p q).1 hq
  have hread : (between p q).piece = piece := by
    rw [between, hafter, List.length_append, Nat.add_sub_cancel, List.take_left]
  refine ⟨between_append hq, hread ▸ hpiece, ?_, hend⟩
  rwa [between, List.getLast?_reverse]

/-- What is found behind a place stands in the text, and nothing that stands there begins
    earlier. -/
theorem stands_of_findFrom (h : ReadsWords phrase R) {before after : Text} {o : Occurrence}
    (hsome : phrase.findFrom before after = some o) :
    Stands R (before.reverse ++ after) o ∧ before.length ≤ o.before.length ∧
      ∀ {o'}, Stands R (before.reverse ++ after) o' → before.length ≤ o'.before.length →
        o.before.length ≤ o'.before.length := by
  induction after generalizing before with
  | nil =>
    obtain ⟨q, hq, rfl⟩ := Option.map_eq_some_iff.1 hsome
    exact ⟨h.stands_between (List.mem_of_head? hq), by simp [between],
      fun _ hle => by simpa [between]⟩
  | cons c rest ih =>
    unfold findFrom at hsome
    split at hsome
    · rename_i q hq
      cases hsome
      exact ⟨h.stands_between (List.mem_of_head? hq), by simp [between],
        fun _ hle => by simpa [between]⟩
    · rename_i hq
      obtain ⟨ho, hle, hfirst⟩ := ih hsome
      rw [List.length_cons] at hle hfirst
      refine ⟨by simpa using ho, by omega, fun {o'} ho' hle' => hfirst (by simpa using ho') ?_⟩
      refine hle'.lt_of_ne fun hsame => ?_
      obtain ⟨q, hmem⟩ := h.exists_mem_ends ho' hsame.symm
      rw [List.head?_eq_none_iff.1 hq] at hmem
      cases hmem

/-! ## Texts -/

variable {t : Text}

theorem find?_eq_none_iff (h : ReadsWords phrase R) :
    phrase.find? t = none ↔ Absent R t := by
  constructor
  · intro hnone o ho
    have htext : o.before.reverse.reverse ++ (o.piece ++ o.after) = t := by
      rw [List.reverse_reverse, ← List.append_assoc, ho.text]
    obtain ⟨q, hq⟩ := h.exists_mem_ends (htext ▸ ho) List.length_reverse.symm
    rw [← htext, List.reverse_reverse] at hnone
    have hends := ends_eq_nil_of_findFrom hnone
    rw [List.append_nil] at hends
    rw [hends] at hq
    cases hq
  · intro habsent
    cases hfind : phrase.find? t with
    | none => rfl
    | some o => exact absurd (h.stands_of_findFrom hfind).1 (habsent o)

theorem eraseAll_of_absent (h : ReadsWords phrase R) (habsent : Absent R t) :
    phrase.eraseAll t = t := by
  rw [eraseAll, eraseFrom_eq_markFrom, markFrom_of_none (h.find?_eq_none_iff.2 habsent)]
  simp

theorem count_of_absent (h : ReadsWords phrase R) (habsent : Absent R t) :
    phrase.count t = 0 := by
  rw [count, markFrom_of_none (h.find?_eq_none_iff.2 habsent)]
  exact count_none_map_some t

/-- What is found stands in the text, and nothing that stands there begins earlier. -/
theorem stands_of_find? (h : ReadsWords phrase R) {o : Occurrence} (hsome : phrase.find? t = some o) :
    Stands R t o ∧ ∀ {o'}, Stands R t o' → o.before.length ≤ o'.before.length := by
  obtain ⟨ho, -, hfirst⟩ := h.stands_of_findFrom hsome
  exact ⟨ho, fun ho' => hfirst ho' (Nat.zero_le _)⟩

/-- **Pieces with one end.** Where all pieces that stand in the text end at the same
    place, the first of them is what is found, what is cut, and all that is counted. -/
theorem of_same_end (h : ReadsWords phrase R) {o : Occurrence} (ho : Stands R t o)
    (hend : ∀ o', Stands R t o' → o'.after = o.after) :
    ∃ found, Stands R t found ∧ phrase.find? t = some found ∧
      phrase.eraseAll t = found.before ++ o.after ∧ phrase.count t = 1 := by
  cases hfind : phrase.find? t with
  | none => exact absurd ho (h.find?_eq_none_iff.1 hfind o)
  | some found =>
    obtain ⟨hstands, -⟩ := h.stands_of_find? hfind
    obtain ⟨kept, hkept, hmarks⟩ := markFrom_of_some hfind (h.ne_nil hstands.piece)
    -- A second occurrence would end later.
    have hrest : phrase.findFrom (found.piece.reverse ++ found.before.reverse) found.after = none := by
      cases hnext : phrase.findFrom (found.piece.reverse ++ found.before.reverse) found.after with
      | none => rfl
      | some next =>
        obtain ⟨hnext, hle, -⟩ := h.stands_of_findFrom hnext
        have htext : (found.piece.reverse ++ found.before.reverse).reverse ++ found.after = t := by
          simpa using hstands.text
        rw [htext] at hnext
        have hpos : 0 < next.piece.length := List.length_pos_iff.2 (h.ne_nil hnext.piece)
        have hsame := congrArg List.length ((hend next hnext).trans (hend found hstands).symm)
        have hwhole := congrArg List.length (hnext.text.trans hstands.text.symm)
        simp only [List.length_append, List.length_reverse] at hle hwhole
        omega
    rw [markFrom_of_none hrest, hend found hstands] at hmarks
    refine ⟨found, hstands, rfl, ?_, ?_⟩
    · rw [eraseAll, eraseFrom_eq_markFrom, hmarks, hkept]
      simp
    · rw [count, hmarks, List.count_append, List.count_cons_self, count_none_map_some,
        count_none_map_some]

end ReadsWords
end Phrase
end TaskDesk
