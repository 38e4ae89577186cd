import TaskDesk.Proofs.Phrase.Reading

/-!
# Pieces at the seams of a text

Where no piece of a class stands in a text, none stands in the parts into which it is cut
between words, and none after blanks are trimmed, collapsed or added. Where a text is put
together from a part in which none stands and one more expression, all pieces that stand
in it end with that expression, and begin or end with the same words, if no piece ends
with a word that the expression has before its last one.

Results:
* `Absent.left`, `Absent.right`, `Absent.append`: parts of a text, and texts with blanks.
* `Absent.trim`, `Absent.collapse`: tidying up.
* `Stands.in_left`, `Stands.in_left_or_at_end`, `Stands.at_end`: pieces that stand in a
  text with one more expression.
-/

namespace TaskDesk

open Text (fold words)

/-- Of two cuts of a text the one with the longer right part comes first. -/
theorem exists_of_append_eq {x y s t : Text} (h : x ++ y = s ++ t) (hlength : t.length ≤ y.length) :
    ∃ rest, s = x ++ rest ∧ y = rest ++ t := by
  rcases List.append_eq_append_iff.1 h with ⟨rest, hs, hy⟩ | ⟨rest, rfl, rfl⟩
  · exact ⟨rest, hs, hy⟩
  · rw [List.length_append] at hlength
    obtain rfl : rest = [] := List.length_eq_zero_iff.1 (by omega)
    exact ⟨[], by simp, by simp⟩

/-! ## Words at the ends of texts -/

theorem words_ne_nil {t : Text} {c : CodePoint} (hc : c ∈ t) (hword : isWord c = true) :
    words t ≠ [] := by
  induction t with
  | nil => cases hc
  | cons d t ih =>
    by_cases hd : isWord d = true
    · exact Text.runs_cons_ne_nil hd t
    · rw [words, Text.runs_cons_of_not (by simpa using hd)]
      refine ih ((List.mem_cons.1 hc).resolve_left ?_)
      rintro rfl
      exact hd hword

theorem words_ne_nil_of_first {t : Text} (h : t.head?.any isWord = true) : words t ≠ [] := by
  cases t with
  | nil => cases h
  | cons c t => exact words_ne_nil List.mem_cons_self h

theorem words_ne_nil_of_last {t : Text} (h : t.getLast?.any isWord = true) : words t ≠ [] := by
  cases hlast : t.getLast? with
  | none => rw [hlast] at h; cases h
  | some c => rw [hlast] at h; exact words_ne_nil (List.mem_of_getLast? hlast) h

/-- A text that ends with a word does not end with characters that belong to none. -/
theorem eq_nil_of_last {s r : Text} (h : (s ++ r).getLast?.any isWord = true)
    (hr : ∀ c ∈ r, isWord c = false) : r = [] := by
  cases hlast : r.getLast? with
  | none => exact List.getLast?_eq_none_iff.1 hlast
  | some c =>
    rw [List.getLast?_append, hlast, Option.some_or] at h
    exact absurd h (by simp [hr c (List.mem_of_getLast? hlast)])

namespace Phrase

variable {R : Text → Prop} {s t : Text}

/-! ## Parts of a text -/

/-- What follows the left part of a text begins with no word. -/
theorem Absent.left (h : Absent R (s ++ t)) (ht : t.head?.any isWord = false) : Absent R s := by
  intro o ho
  refine h ⟨o.before, o.piece, o.after ++ t⟩ ⟨?_, ho.piece, ho.before, ?_⟩
  · rw [← ho.text]
    simp
  · have hafter := ho.after
    cases hrest : o.after with
    | nil => exact ht
    | cons c rest => rwa [hrest] at hafter

/-- What comes before the right part of a text ends with no word. -/
theorem Absent.right (h : Absent R (s ++ t)) (hs : s.getLast?.any isWord = false) :
    Absent R t := by
  intro o ho
  refine h ⟨s ++ o.before, o.piece, o.after⟩ ⟨?_, ho.piece, ?_, ho.after⟩
  · rw [← ho.text]
    simp
  · have hbefore := ho.before
    rw [List.getLast?_append]
    cases hlast : o.before.getLast? with
    | none => exact hs
    | some c => rwa [hlast] at hbefore

/-- A piece stands in every part of the text that begins as the text does and holds it. -/
theorem Stands.cut_after {o : Occurrence} (ho : Stands R t o) {r u : Text} (h : o.after = r ++ u) :
    Stands R (o.before ++ o.piece ++ r) ⟨o.before, o.piece, r⟩ :=
  ⟨rfl, ho.piece, ho.before, Text.head?_left (h ▸ ho.after)⟩

/-- What stands in a part of a text that ends with no word stands in the text. -/
theorem Stands.of_front (hR : WordEnds R) (hs : s.getLast?.any isWord = false) {o : Occurrence}
    (ho : Stands R s o) : Stands R (s ++ t) ⟨o.before, o.piece, o.after ++ t⟩ := by
  refine ⟨?_, ho.piece, ho.before, ?_⟩
  · rw [← ho.text]
    simp
  · have hafter := ho.after
    cases hrest : o.after with
    | nil =>
      rw [← ho.text, hrest, List.append_nil, Text.getLast?_append_any (hR.last _ ho.piece)] at hs
      cases hs
    | cons c rest => rwa [hrest] at hafter

/-- What stands in a part of a text that begins with no word stands in the text. -/
theorem Stands.of_back (hR : WordEnds R) (ht : t.head?.any isWord = false) {o : Occurrence}
    (ho : Stands R t o) : Stands R (s ++ t) ⟨s ++ o.before, o.piece, o.after⟩ := by
  refine ⟨?_, ho.piece, ?_, ho.after⟩
  · rw [← ho.text]
    simp
  · have hbefore := ho.before
    cases hlast : o.before.getLast? with
    | none =>
      rw [← ho.text, List.getLast?_eq_none_iff.1 hlast, List.nil_append,
        Text.head?_append_any (hR.first _ ho.piece)] at ht
      cases ht
    | some c => rwa [List.getLast?_append, hlast, Option.some_or, ← hlast]

theorem Absent.of_front (hR : WordEnds R) (h : Absent R (s ++ t))
    (hs : s.getLast?.any isWord = false) : Absent R s :=
  fun _ ho => h _ (ho.of_front hR hs)

/-- Characters that belong to no word make no piece longer. -/
theorem Absent.append (hR : WordEnds R) (h : Absent R s) (ht : ∀ c ∈ t, isWord c = false) :
    Absent R (s ++ t) := by
  intro o ho
  rcases List.append_eq_append_iff.1 ho.text with ⟨r, rfl, hafter⟩ | ⟨r, hpiece, ht'⟩
  · exact h _ (ho.cut_after hafter)
  · have hlast : (s ++ r).getLast?.any isWord = true := by
      rw [← hpiece]
      exact Text.getLast?_append_any (hR.last _ ho.piece)
    obtain rfl := eq_nil_of_last hlast fun c hc => ht c (by simp [ht', hc])
    exact h ⟨o.before, o.piece, []⟩ ⟨by simpa using hpiece, ho.piece, ho.before, rfl⟩

/-! ## Tidying up -/

theorem Absent.trim (h : Absent R t) : Absent R (Text.trim t) := by
  obtain ⟨before, after, ht, hbefore, hafter⟩ := Text.trimBy_append isBlank t
  rw [ht, List.append_assoc] at h
  refine (h.right ?_).left ?_
  · cases hlast : before.getLast? with
    | none => rfl
    | some c => exact not_isWord_of_isBlank (hbefore c (List.mem_of_getLast? hlast))
  · exact Text.head?_of_forall fun c hc => not_isWord_of_isBlank (hafter c hc)

end Phrase

namespace Text

variable {t x y : Text}

/-- A cut of a text whose blanks are collapsed comes from a cut of the text. -/
theorem collapse_eq_append (h : collapse t = x ++ y) :
    ∃ u v, t = u ++ v ∧ collapse u = x ∧ collapse v = y := by
  induction t generalizing x with
  | nil =>
    obtain ⟨rfl, rfl⟩ := List.append_eq_nil_iff.1 h.symm
    exact ⟨[], [], rfl, rfl, rfl⟩
  | cons c t ih =>
    cases x with
    | nil => exact ⟨[], c :: t, rfl, rfl, h⟩
    | cons d x =>
      rw [collapse] at h
      split at h
      · rename_i hc
        split at h
        · rename_i ht
          obtain ⟨u, v, rfl, hu, hv⟩ := ih h
          refine ⟨c :: u, v, rfl, ?_, hv⟩
          cases u with
          | nil => cases hu
          | cons e u =>
            have hu' : (e :: u).head?.any isBlank = true := ht
            rw [collapse, if_pos hc, if_pos hu', hu]
        · rename_i ht
          obtain ⟨rfl, hrest⟩ := List.cons.inj h
          obtain ⟨u, v, rfl, hu, hv⟩ := ih hrest
          refine ⟨c :: u, v, rfl, ?_, hv⟩
          cases u with
          | nil => rw [collapse, if_pos hc, if_neg (by simp), hu]
          | cons e u =>
            have hu' : ¬ (e :: u).head?.any isBlank = true := ht
            rw [collapse, if_pos hc, if_neg hu', hu]
      · rename_i hc
        obtain ⟨rfl, hrest⟩ := List.cons.inj h
        obtain ⟨u, v, rfl, hu, hv⟩ := ih hrest
        exact ⟨c :: u, v, rfl, by rw [collapse, if_neg hc, hu], hv⟩

theorem collapse_ne_nil (h : t ≠ []) : collapse t ≠ [] := by
  induction t with
  | nil => exact absurd rfl h
  | cons c t ih =>
    rw [collapse]
    split
    · split
      · rename_i ht
        refine ih ?_
        rintro rfl
        cases ht
      · simp
    · simp

theorem getLast?_collapse (t : Text) :
    (collapse t).getLast?.any isWord = t.getLast?.any isWord := by
  induction t with
  | nil => rfl
  | cons c t ih =>
    cases t with
    | nil =>
      by_cases hc : isBlank c = true
      · simp [collapse, hc, not_isWord_of_isBlank hc]
        decide
      · simp [collapse, hc]
    | cons d t =>
      have hlast : ∀ e, (e :: collapse (d :: t)).getLast? = (collapse (d :: t)).getLast? := fun e => by
        rw [List.getLast?_cons, List.getLast?_eq_some_getLast (collapse_ne_nil (by simp))]
        rfl
      rw [List.getLast?_cons_cons, ← ih, collapse]
      split
      · split
        · rfl
        · rw [hlast]
      · rw [hlast]

theorem mem_collapse {c : CodePoint} (hc : c ∈ t) (hblank : isBlank c = false) :
    c ∈ collapse t := by
  induction t with
  | nil => cases hc
  | cons d t ih =>
    rw [collapse]
    rcases List.mem_cons.1 hc with rfl | hc
    · simp [hblank]
    · split
      · split
        · exact ih hc
        · exact List.mem_cons_of_mem _ (ih hc)
      · exact List.mem_cons_of_mem _ (ih hc)

/-- Where no blank is left there was none. -/
theorem collapse_eq_self (h : ∀ c ∈ collapse t, isBlank c = false) : collapse t = t := by
  induction t with
  | nil => rfl
  | cons c t ih =>
    rw [collapse] at h ⊢
    split at h
    · split at h
      · rename_i hc ht
        have hsame := ih h
        cases t with
        | nil => cases ht
        | cons d t =>
          have hd : isBlank d = true := ht
          exact absurd (h d (by rw [hsame]; exact List.mem_cons_self)) (by simp [hd])
      · exact absurd (h ' ' List.mem_cons_self) (by decide)
    · rename_i hc
      rw [if_neg hc, ih fun d hd => h d (List.mem_cons_of_mem _ hd)]

end Text

namespace Phrase

/-- Words are spelled before blanks are collapsed if they are spelled afterwards. -/
theorem spells_of_collapse {ws : List Text} (hws : ∀ w ∈ ws, IsWordText w) {piece : Text}
    (h : Spells ws (Text.collapse piece)) : Spells ws piece := by
  have hself : ∀ {u : Text}, IsWordText (Text.collapse u) → Text.collapse u = u := fun hu =>
    Text.collapse_eq_self fun c hc => by
      cases hblank : isBlank c with
      | false => rfl
      | true => exact absurd (hu.2 c hc) (by simp [not_isWord_of_isBlank hblank])
  induction ws generalizing piece with
  | nil => exact h
  | cons w more ih =>
    cases more with
    | nil =>
      have hword : IsWordText (Text.collapse piece) := .of_fold (h ▸ hws w (by simp))
      rwa [hself hword] at h
    | cons next more =>
      obtain ⟨first, gap, rest, hpiece, hfirst, hgap, hrest⟩ := h
      obtain ⟨u, v, rfl, hu, rfl⟩ := Text.collapse_eq_append hpiece
      obtain ⟨u, gap', rfl, rfl, rfl⟩ := Text.collapse_eq_append hu
      refine ⟨u, gap', v, rfl, ?_, ⟨?_, fun c hc => ?_⟩, ih (fun v hv => hws v (by simp [hv])) hrest⟩
      · have hword : IsWordText (Text.collapse u) := .of_fold (hfirst ▸ hws w (by simp))
        rwa [hself hword] at hfirst
      · rintro rfl
        exact hgap.1 rfl
      · cases hblank : isBlank c with
        | true => rfl
        | false => exact absurd (hgap.2 c (Text.mem_collapse hc hblank)) (by simp [hblank])

/-- Where collapsing blanks makes no piece, none comes up in a collapsed text. -/
theorem Absent.collapse_of {R : Text → Prop} (hR : ∀ piece, R (Text.collapse piece) → R piece)
    {t : Text} (h : Absent R t) : Absent R (Text.collapse t) := by
  intro o ho
  obtain ⟨u, v, rfl, hu, hv⟩ := Text.collapse_eq_append ho.text.symm
  obtain ⟨before, piece, rfl, hbefore, hpiece⟩ := Text.collapse_eq_append hu
  refine h ⟨before, piece, v⟩ ⟨rfl, hR piece (hpiece ▸ ho.piece), ?_, ?_⟩
  · rw [← Text.getLast?_collapse, hbefore]
    exact ho.before
  · rw [← Text.head?_collapse, hv]
    exact ho.after

theorem Absent.collapse {spellings : List (List Text)}
    (hws : ∀ ws ∈ spellings, ∀ w ∈ ws, IsWordText w) {t : Text}
    (h : Absent (SpellsOneOf spellings) t) : Absent (SpellsOneOf spellings) (Text.collapse t) :=
  h.collapse_of fun _ ⟨ws, hmem, hspells⟩ => ⟨ws, hmem, spells_of_collapse (hws ws hmem) hspells⟩

/-! ## One more expression -/

/-- A text is cut into `lead` and `seen`, where `seen` ends as a piece that stands in the
    text does. The last word of the piece is then the last word of `seen`. -/
theorem getLast?_words_of_seam (hR : WordEnds R) {before piece lead seen : Text}
    (hpiece : R piece) (hbefore : before.getLast?.any isWord = false)
    (hseam : Text.Apart isWord lead seen) (hseen : seen ≠ []) (h : before ++ piece = lead ++ seen) :
    words seen ≠ [] ∧ (words piece).getLast? = (words seen).getLast? := by
  have hend : (lead ++ seen).getLast?.any isWord = true := by
    rw [← h]
    exact Text.getLast?_append_any (hR.last _ hpiece)
  rw [List.getLast?_append, List.getLast?_eq_some_getLast hseen, Option.some_or,
    ← List.getLast?_eq_some_getLast] at hend
  have hne : words seen ≠ [] := words_ne_nil_of_last hend
  have hne' : words piece ≠ [] := words_ne_nil_of_first (hR.first _ hpiece)
  have hwords : words before ++ words piece = words lead ++ words seen := by
    have hcut : words (before ++ piece) = words before ++ words piece :=
      Text.runs_append (Text.apart_of_last hbefore)
    rw [← hcut, h]
    exact Text.runs_append hseam
  have hlast := congrArg List.getLast? hwords
  rw [List.getLast?_append, List.getLast?_append, List.getLast?_eq_some_getLast hne,
    List.getLast?_eq_some_getLast hne', Option.some_or, Option.some_or] at hlast
  refine ⟨hne, ?_⟩
  rw [List.getLast?_eq_some_getLast hne, List.getLast?_eq_some_getLast hne', hlast]

/-- Where no piece ends with a word of the right part of a text, all pieces that stand in
    the text stand in the left part. -/
theorem Stands.in_left (hR : WordEnds R) (hseam : Text.Apart isWord s t)
    (hinert : ∀ piece, R piece → ∀ w ∈ ((words piece).map fold).getLast?, w ∉ (words t).map fold)
    {o : Occurrence} (ho : Stands R (s ++ t) o) :
    ∃ r, s = o.before ++ o.piece ++ r ∧ o.after = r ++ t := by
  rcases List.append_eq_append_iff.1 ho.text with ⟨r, hs, hafter⟩ | ⟨seen, hseen, ht⟩
  · exact ⟨r, hs, hafter⟩
  · by_cases hnil : seen = []
    · subst hnil
      exact ⟨[], by simpa using hseen.symm, by simpa using ht.symm⟩
    · exfalso
      have hseam' : Text.Apart isWord s seen := by
        obtain ⟨c, seen, rfl⟩ := List.exists_cons_of_ne_nil hnil
        rwa [ht] at hseam
      obtain ⟨hne, hlast⟩ := getLast?_words_of_seam hR ho.piece ho.before hseam' hnil hseen
      have hcut : words t = words seen ++ words o.after := by
        rw [ht]
        exact Text.runs_append (Text.apart_of_head ho.after)
      refine hinert o.piece ho.piece (fold ((words seen).getLast hne)) ?_ ?_
      · rw [List.getLast?_map, hlast, List.getLast?_eq_some_getLast hne]
        rfl
      · rw [hcut, List.map_append]
        exact List.mem_append_left _ (List.mem_map_of_mem (List.getLast_mem hne))

/-- A piece that ends within an expression, whose words before the last one can be the last
    word of no piece, ends where the expression ends. -/
theorem eq_nil_of_within (hR : WordEnds R) {before piece lead seen r : Text} (hpiece : R piece)
    (hbefore : before.getLast?.any isWord = false) (hbreak : lead.getLast?.any isWord = false)
    (hseen : seen ≠ []) (h : before ++ piece = lead ++ seen) (hr : r.head?.any isWord = false)
    (hlast : (seen ++ r).getLast?.any isWord = true)
    (hinner : ∀ w ∈ ((words piece).map fold).getLast?,
      w ∉ ((words (seen ++ r)).map fold).dropLast) : r = [] := by
  by_contra hne
  obtain ⟨hwords, hlastWord⟩ :=
    getLast?_words_of_seam hR hpiece hbefore (Text.apart_of_last hbreak) hseen h
  have hmore : words r ≠ [] := by
    refine words_ne_nil_of_last ?_
    rwa [List.getLast?_append, List.getLast?_eq_some_getLast hne, Option.some_or,
      ← List.getLast?_eq_some_getLast] at hlast
  have hcut : words (seen ++ r) = words seen ++ words r :=
    Text.runs_append (Text.apart_of_head hr)
  refine hinner (fold ((words seen).getLast hwords)) ?_ ?_
  · rw [List.getLast?_map, hlastWord, List.getLast?_eq_some_getLast hwords]
    rfl
  · rw [hcut, List.map_append, List.dropLast_append_of_ne_nil (by simpa using hmore)]
    exact List.mem_append_left _ (List.mem_map_of_mem (List.getLast_mem hwords))

/-- **Where a piece ends.** The text is put together from `lead`, the expression `last`,
    and characters that belong to no word. No piece ends with a word that the expression
    has before its last one. A piece that stands in the text then stands in `lead`, or it
    ends where the expression ends, and its words and those of the expression end in the
    same way. -/
theorem Stands.in_left_or_at_end (hR : WordEnds R) {lead last tail : Text}
    (hbreak : lead.getLast?.any isWord = false) (hlast : last.getLast?.any isWord = true)
    (htail : ∀ c ∈ tail, isWord c = false)
    (hinner : ∀ piece, R piece →
      ∀ w ∈ ((words piece).map fold).getLast?, w ∉ ((words last).map fold).dropLast)
    {o : Occurrence} (ho : Stands R (lead ++ last ++ tail) o) :
    (∃ r, lead = o.before ++ o.piece ++ r ∧ o.after = r ++ (last ++ tail)) ∨
      (o.before ++ o.piece = lead ++ last ∧ o.after = tail ∧
        ((words o.piece).map fold <:+ (words last).map fold ∨
          (words last).map fold <:+ (words o.piece).map fold)) := by
  have htext := ho.text
  rw [List.append_assoc lead] at htext
  rcases List.append_eq_append_iff.1 htext with ⟨r, hlead, hafter⟩ | ⟨seen, hseen, hrest⟩
  · exact .inl ⟨r, hlead, hafter⟩
  have hend : (lead ++ seen).getLast?.any isWord = true := by
    rw [← hseen]
    exact Text.getLast?_append_any (hR.last _ ho.piece)
  have hne : seen ≠ [] := by
    rintro rfl
    rw [List.append_nil, hbreak] at hend
    cases hend
  -- The piece ends neither behind the expression nor within it.
  have hwhole : seen = last := by
    rcases List.append_eq_append_iff.1 hrest with ⟨r, rfl, htail'⟩ | ⟨r, rfl, hafter⟩
    · rw [← List.append_assoc] at hend
      rw [eq_nil_of_last hend fun c hc => htail c (by simp [htail', hc]), List.append_nil]
    · rw [eq_nil_of_within hR ho.piece ho.before hbreak hne hseen
        (Text.head?_left (hafter ▸ ho.after)) hlast (hinner o.piece ho.piece), List.append_nil]
  subst hwhole
  have hsuffix : words o.piece <:+ words lead ++ words seen := by
    have hbefore : words (o.before ++ o.piece) = words o.before ++ words o.piece :=
      Text.runs_append (Text.apart_of_last ho.before)
    have hcut : words (lead ++ seen) = words lead ++ words seen :=
      Text.runs_append (Text.apart_of_last hbreak)
    rw [← hcut, ← hseen, hbefore]
    exact List.suffix_append _ _
  exact .inr ⟨hseen, (List.append_cancel_left hrest).symm,
    (List.suffix_or_suffix_of_suffix hsuffix (List.suffix_append _ _)).imp
      (fun h => h.map fold) fun h => h.map fold⟩

/-- Where no piece stands in `lead`, all pieces end where the expression ends. -/
theorem Stands.at_end (hR : WordEnds R) {lead last tail : Text} (hlead : Absent R lead)
    (hbreak : lead.getLast?.any isWord = false) (hlast : last.getLast?.any isWord = true)
    (htail : ∀ c ∈ tail, isWord c = false)
    (hinner : ∀ piece, R piece →
      ∀ w ∈ ((words piece).map fold).getLast?, w ∉ ((words last).map fold).dropLast)
    {o : Occurrence} (ho : Stands R (lead ++ last ++ tail) o) :
    o.before ++ o.piece = lead ++ last ∧ o.after = tail ∧
      ((words o.piece).map fold <:+ (words last).map fold ∨
        (words last).map fold <:+ (words o.piece).map fold) := by
  rcases ho.in_left_or_at_end hR hbreak hlast htail hinner with ⟨r, rfl, hafter⟩ | h
  · exact absurd (ho.cut_after hafter) (hlead _)
  · exact h

end Phrase
end TaskDesk
