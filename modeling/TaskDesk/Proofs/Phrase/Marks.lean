import TaskDesk.Proofs.Phrase.Seam

/-!
# Marks in the parts of a text

Where all pieces that a phrase reads have one length, at most one of them stands at a
place. What is marked in a text can then be told part by part: a cut across which no piece
goes separates the marks, and what is left after cutting the pieces is what is left of the
part before the first one, and of the part behind it. No new piece comes up when pieces
are cut, if no piece has two characters in a row that belong to no word.

Results:
* `getLast?_markAll`: the end of a marked text.
* `ReadsSized.marks_append`, `ReadsSized.marks_append_piece`: marks of a text in two parts.
* `ReadsSized.eraseAll_of_find?`: what is left of a text in which a piece is found.
* `ReadsSized.absent_eraseAll`: what stands there.
-/

namespace TaskDesk
namespace Phrase

/-- The text with a mark in the place of each occurrence of the phrase. -/
def marks (phrase : Phrase) (t : Text) : List (Option CodePoint) := phrase.markFrom [] 0 t

theorem count_eq_marks (phrase : Phrase) (t : Text) :
    phrase.count t = (phrase.marks t).count none := rfl

theorem eraseAll_eq_marks (phrase : Phrase) (t : Text) :
    phrase.eraseAll t = (phrase.marks t).filterMap id :=
  eraseFrom_eq_markFrom phrase [] 0 t

/-! ## Marked texts -/

/-- The text with a character that belongs to no word in the place of each occurrence. -/
def markAll (phrase : Phrase) (t : Text) : Text := (phrase.marks t).map (·.getD '\u0000')

theorem map_getD_some (c : CodePoint) (t : Text) : (t.map some).map (·.getD c) = t := by
  rw [List.map_map]
  exact List.map_id t

theorem eq_nil_of_markFrom {phrase : Phrase} {before after : Text}
    (h : phrase.markFrom before 0 after = []) : after = [] := by
  cases after with
  | nil => rfl
  | cons c rest =>
    rw [markFrom] at h
    split at h
    · split at h <;> cases h
    · cases h

/-- Where no mark comes last, the last character has been kept. -/
theorem getLast?_markFrom {phrase : Phrase} {before after : Text} {skip : Nat} {c : CodePoint}
    (h : (phrase.markFrom before skip after).getLast? = some (some c)) :
    after.getLast? = some c := by
  have kept : ∀ {d before rest}, (some d :: phrase.markFrom before 0 rest).getLast? = some (some c) →
      ((phrase.markFrom before 0 rest).getLast? = some (some c) → rest.getLast? = some c) →
      (d :: rest).getLast? = some c := by
    intro d before rest hlast ih
    by_cases hnil : phrase.markFrom before 0 rest = []
    · obtain rfl := eq_nil_of_markFrom hnil
      simpa [markFrom] using hlast
    · rw [List.getLast?_cons, List.getLast?_eq_some_getLast hnil] at hlast
      rw [List.getLast?_cons, ih (by rwa [List.getLast?_eq_some_getLast hnil])]
      rfl
  fun_induction markFrom phrase before skip after with
  | case1 => cases h
  | case2 before skip d rest ih => rw [List.getLast?_cons, ih h, Option.getD_some]
  | case3 before d rest q hq hlength ih => exact kept h ih
  | case4 before d rest q hq length hlength ih =>
    cases hnext : (phrase.markFrom (d :: before) length rest).getLast? with
    | none => rw [List.getLast?_cons, hnext] at h; cases h
    | some e =>
      rw [List.getLast?_cons, hnext] at h
      rw [List.getLast?_cons, ih (by rw [hnext, ← h]; rfl)]
      rfl
  | case5 before d rest hq ih => exact kept h ih

/-- A text that ends with no word does not end with one when it is marked. -/
theorem getLast?_markAll {phrase : Phrase} {t : Text}
    (h : (markAll phrase t).getLast?.any isWord = true) : t.getLast?.any isWord = true := by
  rw [markAll, List.getLast?_map] at h
  cases hmark : (phrase.marks t).getLast? with
  | none => rw [hmark] at h; cases h
  | some e =>
    rw [hmark] at h
    cases e with
    | none => exact absurd h (by decide)
    | some c => rw [getLast?_markFrom hmark]; exact h

/-! ## Pieces of one length -/

/-- The phrase reads pieces of one length, where no word goes across their ends. -/
structure ReadsSized (phrase : Phrase) (R : Text → Prop) (size : Nat) : Prop
    extends ReadsWords phrase R where
  length : ∀ piece, R piece → piece.length = size

/-- The piece stands between what is before it, with the nearest character first, and what
    is behind it. -/
structure Fits (R : Text → Prop) (before piece after : Text) : Prop where
  piece : R piece
  before : before.head?.any isWord = false
  after : after.head?.any isWord = false

theorem Fits.left {R : Text → Prop} {before piece rest t : Text}
    (h : Fits R before piece (rest ++ t)) : Fits R before piece rest :=
  ⟨h.piece, h.before, Text.head?_left h.after⟩

/-- A piece in the left part of a text stands in the whole text, too. -/
theorem Fits.append {R : Text → Prop} (hR : WordEnds R) {before piece rest t : Text}
    (h : Fits R before piece rest) (hseam : Text.Apart isWord (piece ++ rest) t) :
    Fits R before piece (rest ++ t) := by
  refine ⟨h.piece, h.before, ?_⟩
  cases rest with
  | nil =>
    refine hseam ?_
    rw [List.append_nil]
    exact hR.last _ h.piece
  | cons c rest => exact h.after

namespace ReadsSized

variable {phrase : Phrase} {R : Text → Prop} {size : Nat}

/-! ## The marks, step by step -/

/-- A piece that stands at the place is marked. -/
theorem markFrom_piece (h : ReadsSized phrase R size) {before piece after : Text}
    (hfits : Fits R before piece after) :
    phrase.markFrom before 0 (piece ++ after) =
      none :: phrase.markFrom (piece.reverse ++ before) 0 after := by
  obtain ⟨hpiece, hbefore, hafter⟩ := hfits
  have hq : ⟨piece.reverse ++ before, after⟩ ∈ phrase.ends ⟨before, piece ++ after⟩ :=
    (h.mem_ends _ _).2 ⟨piece, hpiece, rfl, rfl, hbefore, hafter⟩
  cases hhead : (phrase.ends ⟨before, piece ++ after⟩).head? with
  | none => rw [List.head?_eq_none_iff.1 hhead] at hq; cases hq
  | some found =>
    obtain ⟨piece', hpiece', htext, -⟩ := (h.mem_ends _ _).1 (List.mem_of_head? hhead)
    have hsize : piece.length = piece'.length :=
      (h.length _ hpiece).trans (h.length _ hpiece').symm
    exact markFrom_of_read (h.ne_nil hpiece) hhead (List.append_inj htext hsize).2.symm

/-- Where no piece stands at the place, the character is kept. -/
theorem markFrom_keep (h : ReadsSized phrase R size) {before rest : Text} {c : CodePoint}
    (hnone : ∀ piece after, c :: rest = piece ++ after → ¬ Fits R before piece after) :
    phrase.markFrom before 0 (c :: rest) = some c :: phrase.markFrom (c :: before) 0 rest := by
  refine markFrom_of_not_read fun q hq => ?_
  obtain ⟨piece, hpiece, htext, -, hbefore, hafter⟩ := (h.mem_ends _ _).1 hq
  exact hnone piece q.after htext ⟨hpiece, hbefore, hafter⟩

/-- Only the character before the place matters. -/
theorem markFrom_congr (h : ReadsSized phrase R size) {before before' after : Text}
    (hsame : before.head?.any isWord = before'.head?.any isWord) :
    phrase.markFrom before 0 after = phrase.markFrom before' 0 after := by
  induction hn : after.length using Nat.strong_induction_on generalizing before before' after with
  | _ n ih =>
  subst hn
  cases after with
  | nil => rfl
  | cons c rest =>
    have hfits' : ∀ piece after, Fits R before' piece after → Fits R before piece after :=
      fun _ _ hfits => ⟨hfits.piece, hsame ▸ hfits.before, hfits.after⟩
    by_cases hsome : ∃ piece after, c :: rest = piece ++ after ∧ Fits R before' piece after
    · obtain ⟨piece, after, htext, hfits⟩ := hsome
      have hpos : 0 < piece.length := List.length_pos_iff.2 (h.ne_nil hfits.piece)
      have hlast : ∀ b : Text, (piece.reverse ++ b).head?.any isWord = true := fun b =>
        Text.head?_append_any (by rw [List.head?_reverse]; exact h.last _ hfits.piece)
      rw [htext, h.markFrom_piece (hfits' _ _ hfits), h.markFrom_piece hfits,
        ih after.length (by rw [htext, List.length_append]; omega)
          ((hlast before).trans (hlast before').symm) rfl]
    · have hnone : ∀ piece after, c :: rest = piece ++ after → ¬ Fits R before' piece after :=
        fun piece after htext hfits => hsome ⟨piece, after, htext, hfits⟩
      rw [h.markFrom_keep hnone, h.markFrom_keep fun piece after htext hfits =>
        hnone piece after htext ⟨hfits.piece, hsame ▸ hfits.before, hfits.after⟩]
      exact congrArg (some c :: ·) (ih rest.length (by simp) rfl rfl)

/-- Behind a word, and in front of none, marks are the same as at the start of a text. -/
theorem markFrom_of_apart (h : ReadsSized phrase R size) {before after : Text}
    (hafter : after.head?.any isWord = false) :
    phrase.markFrom before 0 after = phrase.marks after := by
  cases after with
  | nil => rfl
  | cons c rest =>
    have hnone : ∀ before piece after, c :: rest = piece ++ after → ¬ Fits R before piece after := by
      intro before piece after htext hfits
      have hfirst := Text.head?_append_any (t := after) (h.first _ hfits.piece)
      rw [← htext, hafter] at hfirst
      cases hfirst
    rw [marks, h.markFrom_keep (hnone before), h.markFrom_keep (hnone [])]
    exact congrArg (some c :: ·) (h.markFrom_congr rfl)

/-- **Marks of a text in two parts**, which separate words, and across which goes no piece. -/
theorem markFrom_append (h : ReadsSized phrase R size) {before s t : Text}
    (hseam : Text.Apart isWord s t)
    (hcross : ∀ o, Stands R (before.reverse ++ (s ++ t)) o → before.length ≤ o.before.length →
      o.before.length < before.length + s.length → t.length ≤ o.after.length) :
    phrase.markFrom before 0 (s ++ t) =
      phrase.markFrom before 0 s ++ phrase.markFrom (s.reverse ++ before) 0 t := by
  induction hn : s.length using Nat.strong_induction_on generalizing before s with
  | _ n ih =>
  subst hn
  cases s with
  | nil => rfl
  | cons c s =>
    by_cases hsome : ∃ piece rest, c :: s = piece ++ rest ∧ Fits R before piece (rest ++ t)
    · obtain ⟨piece, rest, htext, hfits⟩ := hsome
      have hpos : 0 < piece.length := List.length_pos_iff.2 (h.ne_nil hfits.piece)
      have hlength := congrArg List.length htext
      rw [List.length_append] at hlength
      rw [htext, List.append_assoc, h.markFrom_piece hfits, h.markFrom_piece hfits.left,
        ih rest.length (by omega) ?_ ?_ rfl]
      · simp
      · cases rest with
        | nil => exact Text.apart_nil_left t
        | cons d rest =>
          refine fun hlast => hseam ?_
          rw [htext]
          exact Text.getLast?_append_any hlast
      · intro o ho hle hlt
        rw [List.length_append, List.length_reverse] at hle hlt
        refine hcross o ?_ (by omega) (by omega)
        rw [htext]
        simpa using ho
    · -- A piece that stands here, in the whole text or in its left part, does not go across
      -- the cut.
      have hpart : ∀ piece rest, c :: s = piece ++ rest → ¬ Fits R before piece rest :=
        fun piece rest htext hfits =>
          hsome ⟨piece, rest, htext, hfits.append h.toWordEnds (htext ▸ hseam)⟩
      have hwhole : ∀ piece after, c :: (s ++ t) = piece ++ after → ¬ Fits R before piece after := by
        intro piece after htext hfits
        have hle : t.length ≤ after.length := hcross ⟨before.reverse, piece, after⟩
          ⟨by rw [List.append_assoc, ← htext]; rfl, hfits.piece,
            by rw [List.getLast?_reverse]; exact hfits.before, hfits.after⟩ (by simp) (by simp)
        have hcut : piece ++ after = c :: s ++ t := htext.symm
        obtain ⟨rest, hs, rfl⟩ := exists_of_append_eq hcut hle
        exact hsome ⟨piece, rest, hs, hfits⟩
      rw [List.cons_append, h.markFrom_keep hwhole, h.markFrom_keep hpart,
        ih s.length (by simp) ?_ ?_ rfl]
      · simp
      · cases s with
        | nil => exact Text.apart_nil_left t
        | cons d s => exact Text.apart_cons_cons.1 hseam
      · intro o ho hle hlt
        rw [List.length_cons] at hle hlt
        refine hcross o (by simpa using ho) (by omega) ?_
        rw [List.length_cons]
        omega

/-! ## Texts in parts -/

variable {s t : Text}

/-- The right part of a text is left alone where all pieces that stand in the text stand in
    the left part. -/
theorem marks_append (h : ReadsSized phrase R size) (hseam : Text.Apart isWord s t)
    (hleft : ∀ o, Stands R (s ++ t) o → t.length ≤ o.after.length) :
    phrase.marks (s ++ t) = phrase.marks s ++ t.map some := by
  have hcut : phrase.markFrom [] 0 (s ++ t) = _ :=
    h.markFrom_append hseam fun o ho _ _ => hleft o ho
  rw [marks, hcut, List.append_nil]
  refine congrArg (phrase.markFrom [] 0 s ++ ·) (markFrom_of_none ?_)
  cases hfind : phrase.findFrom s.reverse t with
  | none => rfl
  | some o =>
    obtain ⟨ho, hle, -⟩ := h.stands_of_findFrom hfind
    rw [List.reverse_reverse] at ho
    have hpos : 0 < o.piece.length := List.length_pos_iff.2 (h.ne_nil ho.piece)
    have hlength := congrArg List.length ho.text
    have hshort := hleft o ho
    simp only [List.length_append, List.length_reverse] at hlength hle
    omega

/-- A piece behind the left part of a text is marked, and nothing else but what is marked in
    the left part, where all other pieces that stand in the text stand there. -/
theorem marks_append_piece (h : ReadsSized phrase R size) {piece tail : Text}
    (hpiece : R piece) (hs : s.getLast?.any isWord = false) (htail : tail.head?.any isWord = false)
    (hother : ∀ o, Stands R (s ++ (piece ++ tail)) o →
      (piece ++ tail).length ≤ o.after.length ∨ o.after = tail) :
    phrase.marks (s ++ (piece ++ tail)) = phrase.marks s ++ none :: tail.map some := by
  have hsize : ∀ o, Stands R (s ++ (piece ++ tail)) o → o.piece.length = piece.length :=
    fun o ho => (h.length _ ho.piece).trans (h.length _ hpiece).symm
  have hrest : phrase.markFrom (piece.reverse ++ s.reverse) 0 tail = tail.map some := by
    refine markFrom_of_none ?_
    cases hfind : phrase.findFrom (piece.reverse ++ s.reverse) tail with
    | none => rfl
    | some o =>
      obtain ⟨ho, hle, -⟩ := h.stands_of_findFrom hfind
      have ho : Stands R (s ++ (piece ++ tail)) o := by simpa using ho
      have hpos : 0 < o.piece.length := List.length_pos_iff.2 (h.ne_nil ho.piece)
      have hlength := congrArg List.length ho.text
      have hcases := (hother o ho).imp_right (congrArg List.length)
      simp only [List.length_append, List.length_reverse] at hlength hle hcases
      omega
  rw [marks, h.markFrom_append (Text.apart_of_last hs), List.append_nil,
    h.markFrom_piece ⟨hpiece, by rwa [List.head?_reverse], htail⟩, hrest]
  · rfl
  · intro o ho _ hlt
    have ho : Stands R (s ++ (piece ++ tail)) o := ho
    have hlength := congrArg List.length ho.text
    have hsame := hsize o ho
    have hcases := (hother o ho).imp_right (congrArg List.length)
    simp only [List.length_append, List.length_nil] at hlength hlt hcases ⊢
    omega

/-! ## What is left -/

/-- The first piece that stands in a text is cut, and then those behind it. -/
theorem eraseAll_of_find? (h : ReadsSized phrase R size) {o : Occurrence}
    (hfind : phrase.find? t = some o) :
    phrase.eraseAll t = o.before ++ phrase.eraseAll o.after := by
  obtain ⟨ho, -⟩ := h.stands_of_find? hfind
  obtain ⟨kept, hkept, hmarks⟩ := markFrom_of_some hfind (h.ne_nil ho.piece)
  rw [h.markFrom_of_apart ho.after] at hmarks
  rw [eraseAll_eq_marks, eraseAll_eq_marks, marks, hmarks, hkept]
  simp

end ReadsSized

/-! ## New neighbours -/

/-- No piece of the class has two characters in a row that belong to no word. -/
def Tight (R : Text → Prop) : Prop :=
  ∀ piece x y, R piece → piece = x ++ y →
    x.getLast?.any isWord = true ∨ y.head?.any isWord = true

/-- A piece goes across no place that belongs to no word on either side. -/
theorem Stands.front_or_back {R : Text → Prop} {s t : Text} {o : Occurrence} (hR : Tight R)
    (hlast : s.getLast?.any isWord = false) (hfirst : t.head?.any isWord = false)
    (ho : Stands R (s ++ t) o) :
    (∃ r, s = o.before ++ o.piece ++ r ∧ o.after = r ++ t) ∨
      ∃ x, o.before = s ++ x ∧ t = x ++ o.piece ++ o.after := by
  rcases List.append_eq_append_iff.1 ho.text with ⟨r, hs, hafter⟩ | ⟨y, hy, rfl⟩
  · exact .inl ⟨r, hs, hafter⟩
  · rcases List.append_eq_append_iff.1 hy with ⟨x, rfl, hpiece⟩ | ⟨x, hbefore, rfl⟩
    · rcases hR o.piece x y ho.piece hpiece with hx | hy
      · rw [Text.getLast?_append_any hx] at hlast
        cases hlast
      · rw [Text.head?_append_any hy] at hfirst
        cases hfirst
    · exact .inr ⟨x, hbefore, rfl⟩

/-- No piece comes up between texts that do not touch with words. -/
theorem Absent.join {R : Text → Prop} {s t : Text} (hR : Tight R) (hs : Absent R s)
    (ht : Absent R t) (hlast : s.getLast?.any isWord = false)
    (hfirst : t.head?.any isWord = false) : Absent R (s ++ t) := by
  intro o ho
  rcases ho.front_or_back hR hlast hfirst with ⟨r, rfl, hafter⟩ | ⟨x, hbefore, rfl⟩
  · exact hs _ (ho.cut_after hafter)
  · exact ht ⟨x, o.piece, o.after⟩
      ⟨rfl, ho.piece, Text.getLast?_right (hbefore ▸ ho.before), ho.after⟩

namespace ReadsSized

variable {phrase : Phrase} {R S : Text → Prop} {size : Nat} {t : Text}

theorem head?_eraseAll (h : ReadsSized phrase R size) (ht : t.head?.any isWord = false) :
    (phrase.eraseAll t).head?.any isWord = false := by
  cases hfind : phrase.find? t with
  | none => rwa [h.eraseAll_of_absent (h.find?_eq_none_iff.1 hfind)]
  | some o =>
    obtain ⟨ho, -⟩ := h.stands_of_find? hfind
    have hne : o.before ≠ [] := by
      intro hnil
      have htext := ho.text
      rw [hnil, List.nil_append] at htext
      rw [← htext, Text.head?_append_any (h.first _ ho.piece)] at ht
      cases ht
    obtain ⟨c, before, hbefore⟩ := List.exists_cons_of_ne_nil hne
    rw [h.eraseAll_of_find? hfind, hbefore]
    have htext := ho.text
    rw [hbefore] at htext
    rwa [← htext] at ht

/-- **What stands in the rest.** Pieces of a second class that stand in a text only where
    pieces of the first one do, or nowhere, stand nowhere in what is left of the text. -/
theorem absent_eraseAll (h : ReadsSized phrase R size) (hS : WordEnds S) (htight : Tight S)
    (honly : ∀ o, Stands S t o → R o.piece) : Absent S (phrase.eraseAll t) := by
  induction hn : t.length using Nat.strong_induction_on generalizing t with
  | _ n ih =>
  subst hn
  cases hfind : phrase.find? t with
  | none =>
    have hnone := h.find?_eq_none_iff.1 hfind
    rw [h.eraseAll_of_absent hnone]
    exact fun o ho => hnone o ⟨ho.text, honly o ho, ho.before, ho.after⟩
  | some o =>
    obtain ⟨ho, hfirst⟩ := h.stands_of_find? hfind
    obtain rfl := ho.text
    have hpos : 0 < o.piece.length := List.length_pos_iff.2 (h.ne_nil ho.piece)
    rw [h.eraseAll_of_find? hfind]
    refine Absent.join htight ?_ (ih o.after.length ?_ ?_ rfl) ho.before (h.head?_eraseAll ho.after)
    · -- What stands before the first piece would come first itself.
      intro o' ho'
      have hwhole := ho'.of_front (t := o.piece ++ o.after) hS ho.before
      rw [← List.append_assoc] at hwhole
      have hle := hfirst ⟨hwhole.text, honly _ hwhole, hwhole.before, hwhole.after⟩
      have hlength := congrArg List.length ho'.text
      have hpos' : 0 < o'.piece.length := List.length_pos_iff.2 (hS.ne_nil ho'.piece)
      simp only [List.length_append] at hle hlength
      omega
    · simp only [List.length_append]
      omega
    · intro o' ho'
      have hpiece := honly _ (ho'.of_back (s := o.before ++ o.piece) hS ho.after)
      exact hpiece

end ReadsSized
end Phrase
end TaskDesk
