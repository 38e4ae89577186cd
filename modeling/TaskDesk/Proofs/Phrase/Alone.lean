import TaskDesk.Proofs.Phrase.Reading

/-!
# Pieces on their own

What a phrase finds in a text depends on the whole text, since a run can go on behind the
piece and the conditions at its ends look at the characters around it. Where a piece has
been found, the phrase finds it in the piece alone too, if the conditions hold at the ends
of a text: the ways to read the phrase that stay inside the piece are the same in both
texts, and they come in the same order.

Results:
* `ends_within`: the ends inside a part of a text are those in the part alone.
* `find?_alone`, `find?_alone_whole`: what is found in the piece alone.
* `exists_front_alone`: what is read of the piece alone where the conditions do not hold at
  its end.
-/

namespace TaskDesk

/-- The place with more text around the text. -/
def Place.within (before after : Text) (p : Place) : Place :=
  ⟨p.before ++ before, p.after ++ after⟩

/-- Whether the place does not lie behind the beginning of `rest`, the end of the text. -/
def Place.isAhead (rest : Text) (p : Place) : Bool := rest.length ≤ p.after.length

theorem Place.within_injective (before after : Text) :
    Function.Injective (Place.within before after) := by
  rintro ⟨b, a⟩ ⟨b', a'⟩ h
  obtain ⟨hbefore, hafter⟩ := Place.mk.inj h
  obtain rfl : b = b' := List.append_cancel_right hbefore
  obtain rfl : a = a' := List.append_cancel_right hafter
  rfl

theorem Place.isAhead_within (before after : Text) (p : Place) :
    (p.within before after).isAhead after = true := by
  simp [Place.isAhead, Place.within]

/-- Whether the characters on both sides of the place pass the test. -/
def Place.passes (test : Option CodePoint → Option CodePoint → Bool) (p : Place) : Bool :=
  test p.before.head? p.after.head?

namespace Phrase

/-! ## Ends inside a part of a text -/

/-- Whether the phrase sets no conditions on what is around a place. -/
def isFree : Phrase → Bool
  | nothing => true
  | here _ => false
  | one _ => true
  | many _ _ _ => true
  | seq first second => first.isFree && second.isFree
  | either first second => first.isFree && second.isFree

theorem isFree_letters (t : Text) : (letters t).isFree = true := by
  induction t with
  | nil => rfl
  | cons c rest ih => exact ih

theorem isFree_oneOf {phrases : List Phrase} (hne : phrases ≠ [])
    (h : ∀ phrase ∈ phrases, phrase.isFree = true) : (oneOf phrases).isFree = true := by
  induction phrases with
  | nil => exact absurd rfl hne
  | cons phrase more ih =>
    cases more with
    | nil => exact h phrase (by simp)
    | cons next more =>
      exact Bool.and_eq_true_iff.2 ⟨h phrase (by simp),
        ih (by simp) fun other hother => h other (List.mem_cons_of_mem _ hother)⟩

/-- All ends of a run lie at or behind its start. -/
theorem filter_runEnds_of_short {test : CodePoint → Bool} {rest after : Text}
    (h : after.length < rest.length) {least : Nat} {most : Option Nat} {found : List Place}
    {before : Text} :
    (runEnds test least most found before after).filter (·.isAhead rest) =
      found.filter (·.isAhead rest) := by
  have hhere : ∀ {least : Nat} {found : List Place} {before after : Text},
      after.length < rest.length →
      (if least = 0 then ⟨before, after⟩ :: found else found).filter (·.isAhead rest) =
        found.filter (·.isAhead rest) := by
    intro least found before after h
    split
    · exact List.filter_cons_of_neg (by simpa [Place.isAhead] using h)
    · rfl
  induction after generalizing least most found before with
  | nil => exact hhere h
  | cons c after ih =>
    have hafter : after.length < rest.length := Nat.lt_of_succ_lt h
    rw [runEnds]
    by_cases hc : most ≠ some 0 ∧ test c = true
    · rw [if_pos hc, ih hafter, hhere h]
    · rw [if_neg hc, hhere h]

theorem runEnds_within {test : CodePoint → Bool} {before after : Text} {inner passed : Text}
    {least : Nat} {most : Option Nat} {found found' : List Place}
    (h : found.map (.within before after) = found'.filter (·.isAhead after)) :
    (runEnds test least most found passed inner).map (.within before after) =
      (runEnds test least most found' (passed ++ before) (inner ++ after)).filter
        (·.isAhead after) := by
  have hhere : ∀ {least : Nat} {passed inner : Text} {found found' : List Place},
      found.map (.within before after) = found'.filter (·.isAhead after) →
      (if least = 0 then ⟨passed, inner⟩ :: found else found).map (.within before after) =
        (if least = 0 then ⟨passed ++ before, inner ++ after⟩ :: found' else found').filter
          (·.isAhead after) := by
    intro least passed inner found found' h
    split
    · rw [List.map_cons, h, List.filter_cons_of_pos (by simp [Place.isAhead])]
      rfl
    · exact h
  induction inner generalizing least most found found' passed with
  | nil =>
    rw [runEnds, hhere h, List.nil_append]
    cases after with
    | nil => rfl
    | cons d rest =>
      rw [runEnds]
      by_cases hd : most ≠ some 0 ∧ test d = true
      · rw [if_pos hd, filter_runEnds_of_short (by simp)]
      · rw [if_neg hd]
  | cons c inner ih =>
    rw [runEnds, List.cons_append, runEnds]
    by_cases hc : most ≠ some 0 ∧ test c = true
    · rw [if_pos hc, if_pos hc]
      exact ih (hhere h)
    · rw [if_neg hc, if_neg hc]
      exact hhere h

/-- A place behind the beginning of the rest has no end ahead of it. -/
theorem filter_ends_of_behind (phrase : Phrase) {rest : Text} {p : Place}
    (h : p.isAhead rest = false) : (phrase.ends p).filter (·.isAhead rest) = [] := by
  refine List.filter_eq_nil_iff.2 fun q hq hahead => ?_
  obtain ⟨piece, hafter, -⟩ := reaches_of_mem_ends phrase hq
  have hlength := congrArg List.length hafter
  simp only [Place.isAhead, decide_eq_false_iff_not, decide_eq_true_eq] at h hahead
  rw [List.length_append] at hlength
  omega

/-- **Ends inside a part.** Without conditions, the ends of a phrase in a part of a text are
    those that the phrase has in the part alone. -/
theorem ends_within {phrase : Phrase} (hfree : phrase.isFree = true) (before after : Text)
    (p : Place) :
    (phrase.ends p).map (.within before after) =
      (phrase.ends (p.within before after)).filter (·.isAhead after) := by
  induction phrase generalizing p with
  | nothing => simp [ends, Place.isAhead_within]
  | here test => cases hfree
  | one test =>
    obtain ⟨passed, inner⟩ := p
    cases inner with
    | nil =>
      symm
      refine List.filter_eq_nil_iff.2 fun q hq hahead => ?_
      obtain ⟨c, -, hafter, -⟩ := mem_ends_one.1 hq
      have hlength := congrArg List.length hafter
      simp only [Place.within, List.nil_append, List.length_cons] at hlength
      simp only [Place.isAhead, decide_eq_true_eq] at hahead
      omega
    | cons c inner =>
      simp only [ends, Place.within, List.cons_append]
      split
      · rw [List.filter_cons_of_pos (by simp [Place.isAhead])]
        rfl
      · rfl
  | many test least most => exact runEnds_within (by simp)
  | seq first second ih₁ ih₂ =>
    obtain ⟨hfirst, hsecond⟩ := Bool.and_eq_true_iff.1 hfree
    have hskip : ∀ l : List Place,
        (l.filter (·.isAhead after)).flatMap (fun r => (second.ends r).filter (·.isAhead after)) =
          l.flatMap fun r => (second.ends r).filter (·.isAhead after) := by
      intro l
      induction l with
      | nil => rfl
      | cons r l ih =>
        cases hr : r.isAhead after with
        | true => rw [List.filter_cons_of_pos hr, List.flatMap_cons, ih, List.flatMap_cons]
        | false =>
          rw [List.filter_cons_of_neg (by simp [hr]), List.flatMap_cons,
            filter_ends_of_behind second hr, List.nil_append, ih]
    calc ((first.ends p).flatMap second.ends).map (.within before after)
        = (first.ends p).flatMap fun r =>
            (second.ends (r.within before after)).filter (·.isAhead after) := by
          rw [List.map_flatMap]
          simp only [ih₂ hsecond]
      _ = ((first.ends p).map (.within before after)).flatMap fun r =>
            (second.ends r).filter (·.isAhead after) := by rw [List.flatMap_map]
      _ = (first.ends (p.within before after)).flatMap fun r =>
            (second.ends r).filter (·.isAhead after) := by rw [ih₁ hfirst, hskip]
      _ = _ := by rw [ends, List.filter_flatMap]
  | either first second ih₁ ih₂ =>
    obtain ⟨hfirst, hsecond⟩ := Bool.and_eq_true_iff.1 hfree
    simp only [ends, List.map_append, List.filter_append, ih₁ hfirst, ih₂ hsecond]

/-! ## Conditions at the ends of a piece -/

/-- The phrase reads what `inner` reads, where the characters around the start pass one
    test and those around the end another. -/
def Guards (start stop : Option CodePoint → Option CodePoint → Bool) (inner phrase : Phrase) :
    Prop :=
  ∀ p, phrase.ends p = if p.passes start then (inner.ends p).filter (·.passes stop) else []

theorem guards_inOrder (start stop : Option CodePoint → Option CodePoint → Bool) (inner : Phrase) :
    Guards start stop inner (inOrder [here start, inner, here stop]) := by
  have hstop : ∀ l : List Place, (l.flatMap fun q => if q.passes stop then [q] else []) =
      l.filter (·.passes stop) := by
    intro l
    induction l with
    | nil => rfl
    | cons q l ih =>
      rw [List.flatMap_cons, ih, List.filter_cons]
      split <;> rfl
  intro p
  show ((if p.passes start then [p] else []).flatMap fun q =>
    (inner.ends q).flatMap fun r => if r.passes stop then [r] else []) = _
  simp only [hstop]
  split
  · rw [List.flatMap_singleton]
  · rfl

namespace Guards

variable {start stop : Option CodePoint → Option CodePoint → Bool} {inner phrase : Phrase}

theorem passes_of_mem_ends (h : Guards start stop inner phrase) {p q : Place}
    (hq : q ∈ phrase.ends p) : p.passes start = true := by
  by_contra hfails
  rw [h, if_neg hfails] at hq
  cases hq

end Guards

/-- What a phrase that cuts words reads is never empty. -/
theorem CutsWords.not_mem_ends {phrase : Phrase} (h : CutsWords phrase) (p : Place) :
    p ∉ phrase.ends p := by
  intro hp
  obtain ⟨-, ⟨c, piece, -, hafter⟩, -⟩ := h p p hp
  have hlength := congrArg List.length hafter
  rw [List.length_append, List.length_cons] at hlength
  omega

/-- The end of a piece that was found, in the text around the piece. -/
theorem head?_ends_within {phrase : Phrase} {t : Text} {o : Occurrence}
    (h : phrase.find? t = some o) :
    (phrase.ends (Place.within o.before.reverse o.after ⟨[], o.piece⟩)).head? =
      some (Place.within o.before.reverse o.after ⟨o.piece.reverse, []⟩) :=
  head?_ends_of_findFrom h

theorem CutsWords.first_of_find? {phrase : Phrase} (h : CutsWords phrase) {t : Text}
    {o : Occurrence} (ho : phrase.find? t = some o) : o.piece.head?.any isWord = true := by
  obtain ⟨-, ⟨c, piece, hc, hafter⟩, -⟩ := h _ _ (List.mem_of_head? (head?_ends_of_findFrom ho))
  have hpiece : o.piece = c :: piece := List.append_cancel_right hafter
  rw [hpiece]
  exact hc

theorem CutsWords.piece_ne_nil {phrase : Phrase} (h : CutsWords phrase) {t : Text}
    {o : Occurrence} (ho : phrase.find? t = some o) : o.piece ≠ [] := by
  intro hnil
  have hfirst := h.first_of_find? ho
  rw [hnil] at hfirst
  cases hfirst

/-- Where the phrase reads the beginning of a text, this is what is found. -/
theorem find?_of_head?_ends {phrase : Phrase} {piece : Text} (rest : Text) (hne : piece ≠ [])
    (h : (phrase.ends ⟨[], piece ++ rest⟩).head? = some ⟨piece.reverse, rest⟩) :
    phrase.find? (piece ++ rest) = some ⟨[], piece, rest⟩ := by
  have hbetween : between ⟨[], piece ++ rest⟩ ⟨piece.reverse, rest⟩ = ⟨[], piece, rest⟩ := by
    rw [between, List.length_append, Nat.add_sub_cancel, List.take_left]
    rfl
  cases piece with
  | nil => exact absurd rfl hne
  | cons c more =>
    rw [List.cons_append] at h hbetween ⊢
    rw [find?, findFrom, h]
    exact congrArg some hbetween

section Alone

variable {start stop : Option CodePoint → Option CodePoint → Bool} {inner phrase : Phrase}
  {t : Text} {o : Occurrence}

/-- Only one end lies at the end of a text. -/
theorem eq_of_mem_ends {piece before : Text} (h : ⟨before, []⟩ ∈ phrase.ends ⟨[], piece⟩) :
    before = piece.reverse := by
  obtain ⟨read, hafter, hbefore⟩ := reaches_of_mem_ends phrase h
  rw [List.append_nil] at hafter hbefore
  obtain rfl : piece = read := hafter
  exact hbefore

/-- At an end before the last character the condition is the same in the piece alone and in
    the text around it. -/
theorem Guards.passes_within (hguards : Guards start stop inner phrase)
    (hfree : inner.isFree = true) (hcuts : CutsWords phrase) (h : phrase.find? t = some o)
    (hstart : start none o.piece.head? = true) {q : Place} (hq : q ∈ inner.ends ⟨[], o.piece⟩)
    (hne : q.after ≠ []) :
    (q.within o.before.reverse o.after).passes stop = q.passes stop := by
  have hq' : q.within o.before.reverse o.after ∈
      inner.ends (.within o.before.reverse o.after ⟨[], o.piece⟩) :=
    (List.mem_filter.1 (ends_within hfree _ _ _ ▸ List.mem_map_of_mem hq)).1
  have hends : ∀ p r : Place, p.passes start = true → r ∈ inner.ends p → r.passes stop = true →
      r ∈ phrase.ends p := by
    intro p r hp hr hpass
    rw [hguards, if_pos hp]
    exact List.mem_filter.2 ⟨hr, hpass⟩
  obtain ⟨piece, hafter, hbefore⟩ := reaches_of_mem_ends inner hq
  obtain ⟨before, after⟩ := q
  simp only [List.append_nil] at hafter hbefore hne
  subst hbefore
  by_cases hnil : piece = []
  · -- The empty piece passes in neither text.
    subst hnil
    obtain rfl : o.piece = after := hafter
    have hstart' := hguards.passes_of_mem_ends (List.mem_of_head? (head?_ends_within h))
    have hfails : ¬ Place.passes stop ⟨[], o.piece⟩ = true := fun hpass =>
      hcuts.not_mem_ends _ (hends ⟨[], o.piece⟩ _ hstart hq hpass)
    have hfails' : ¬ (Place.within o.before.reverse o.after ⟨[], o.piece⟩).passes stop = true :=
      fun hpass => hcuts.not_mem_ends _ (hends _ _ hstart' hq' hpass)
    rw [Bool.not_eq_true] at hfails hfails'
    exact hfails'.trans hfails.symm
  · cases after with
    | nil => exact absurd rfl hne
    | cons d after =>
      simp only [Place.passes, Place.within, List.cons_append, List.head?_cons]
      cases hhead : piece.reverse with
      | nil => exact absurd (List.reverse_eq_nil_iff.1 hhead) hnil
      | cons c more => rfl

/-- **The piece alone.** A phrase with conditions at its ends finds a piece in the piece
    alone, if the conditions hold at the ends of a text. -/
theorem find?_alone (hguards : Guards start stop inner phrase)
    (hfree : inner.isFree = true) (hcuts : CutsWords phrase) (h : phrase.find? t = some o)
    (hstart : start none o.piece.head? = true) (hstop : stop o.piece.getLast? none = true) :
    phrase.find? o.piece = some ⟨[], o.piece, []⟩ := by
  have hpreferred := head?_ends_within h
  have hends : phrase.ends ⟨[], o.piece⟩ = (inner.ends ⟨[], o.piece⟩).filter (·.passes stop) := by
    rw [hguards]
    exact if_pos hstart
  have hstart' := hguards.passes_of_mem_ends (List.mem_of_head? hpreferred)
  have hsame : ∀ q ∈ inner.ends ⟨[], o.piece⟩,
      (q.within o.before.reverse o.after).passes stop = q.passes stop := by
    rintro ⟨before, after⟩ hq
    cases after with
    | nil =>
      -- The end of the whole piece is the one that was found.
      obtain rfl := eq_of_mem_ends hq
      have hmem := List.mem_of_head? hpreferred
      rw [hguards, if_pos hstart'] at hmem
      refine (List.mem_filter.1 hmem).2.trans ?_
      rw [Place.passes, List.head?_reverse]
      exact hstop.symm
    | cons c after => exact hguards.passes_within hfree hcuts h hstart hq (List.cons_ne_nil c after)
  -- The ends in the piece alone are those in the text that stay inside the piece.
  have hmap : (phrase.ends ⟨[], o.piece⟩).map (.within o.before.reverse o.after) =
      (phrase.ends (.within o.before.reverse o.after ⟨[], o.piece⟩)).filter
        (·.isAhead o.after) := by
    rw [hends, hguards (.within _ _ _), if_pos hstart', List.filter_filter,
      List.filter_congr fun q _ => Bool.and_comm _ _, ← List.filter_filter, ← ends_within hfree,
      List.filter_map]
    exact congrArg _ (List.filter_congr fun q hq => (hsame q hq).symm)
  obtain ⟨more, hmore⟩ := List.head?_eq_some_iff.1 hpreferred
  have hhead := congrArg List.head? hmap
  rw [hmore, List.filter_cons_of_pos (Place.isAhead_within _ _ _), List.head?_map] at hhead
  obtain ⟨q, hq, hwithin⟩ := Option.map_eq_some_iff.1 hhead
  have hall := find?_of_head?_ends [] (hcuts.piece_ne_nil h)
    (by rw [List.append_nil, hq, Place.within_injective _ _ hwithin])
  rwa [List.append_nil] at hall

/-- A phrase that cuts no word finds a piece that ends with a word in the piece alone. -/
theorem find?_alone_whole (hfree : inner.isFree = true) (hcuts : CutsWords (whole inner))
    (h : (whole inner).find? t = some o) (hlast : o.piece.getLast?.any isWord = true) :
    (whole inner).find? o.piece = some ⟨[], o.piece, []⟩ := by
  refine find?_alone (guards_inOrder _ _ inner) hfree hcuts h ?_ ?_
  · rw [hcuts.first_of_find? h]
    rfl
  · rw [hlast]
    rfl

/-- What reads words where they stand cuts words. -/
theorem ReadsWords.cutsWords {R : Text → Prop} (hreads : ReadsWords phrase R) :
    CutsWords phrase := by
  intro p q hq
  obtain ⟨piece, hpiece, hafter, -, hbefore, hend⟩ := (hreads.mem_ends p q).1 hq
  refine ⟨hbefore, ?_, fun _ => hend⟩
  have hfirst := hreads.first piece hpiece
  cases piece with
  | nil => cases hfirst
  | cons c piece => exact ⟨c, piece, hfirst, hafter⟩

theorem ReadsWords.find?_alone {R : Text → Prop} (hreads : ReadsWords (whole inner) R)
    (hfree : inner.isFree = true) (h : (whole inner).find? t = some o) :
    (whole inner).find? o.piece = some ⟨[], o.piece, []⟩ :=
  find?_alone_whole hfree hreads.cutsWords h (hreads.last _ (hreads.stands_of_find? h).1.piece)

/-- Where the conditions do not hold at the end of the piece, the piece alone is read up to
    an earlier end, with the same first part and another second one. -/
theorem exists_front_alone {front tail : Phrase} (hguards : Guards start stop inner phrase)
    (hinner : ∀ p, inner.ends p = (seq front tail).ends p) (hfront : front.isFree = true)
    (htail : tail.isFree = true) (hfree : inner.isFree = true) (hcuts : CutsWords phrase)
    (h : phrase.find? t = some o) (hstart : start none o.piece.head? = true)
    (hstop : stop o.piece.getLast? none = false) :
    ∃ kept rest, o.piece = kept ++ rest ∧ ⟨kept.reverse, rest⟩ ∈ front.ends ⟨[], o.piece⟩ ∧
      ⟨o.piece.reverse, []⟩ ∈ tail.ends ⟨kept.reverse, rest⟩ ∧
      ∀ q, ((tail.ends ⟨kept.reverse, rest⟩).filter (·.passes stop)).head? = some q →
        (phrase.ends ⟨[], o.piece⟩).head? = some q := by
  have hpreferred := head?_ends_within h
  have hstart' := hguards.passes_of_mem_ends (List.mem_of_head? hpreferred)
  have hends : ∀ p : Place, p.passes start = true → (phrase.ends p).head? =
      (front.ends p).findSome? fun r => ((tail.ends r).filter (·.passes stop)).head? := by
    intro p hp
    rw [hguards, if_pos hp, hinner, ends, List.filter_flatMap, List.head?_flatMap]
  rw [hends _ hstart'] at hpreferred
  obtain ⟨passed, r, others, hall, hr, hpassed⟩ := List.findSome?_eq_some_iff.1 hpreferred
  have hmem : Place.within o.before.reverse o.after ⟨o.piece.reverse, []⟩ ∈ tail.ends r :=
    (List.mem_filter.1 (List.mem_of_head? hr)).1
  have hahead : r.isAhead o.after = true := by
    obtain ⟨piece, hafter, -⟩ := reaches_of_mem_ends tail hmem
    have hlength := congrArg List.length hafter
    simp only [Place.within, List.nil_append, List.length_append] at hlength
    simp only [Place.isAhead, decide_eq_true_eq]
    omega
  -- The same way to read the first part is there in the piece alone, behind ways that fail.
  have hmap := ends_within hfront o.before.reverse o.after ⟨[], o.piece⟩
  rw [hall, List.filter_append, List.filter_cons_of_pos hahead] at hmap
  obtain ⟨passed', others', hall', hpassed', hothers'⟩ := List.map_eq_append_iff.1 hmap
  obtain ⟨r', others', rfl, rfl, -⟩ := List.map_eq_cons_iff.1 hothers'
  have hr' : r' ∈ front.ends ⟨[], o.piece⟩ := by rw [hall']; simp
  obtain ⟨kept, hafter, hbefore⟩ := reaches_of_mem_ends front hr'
  obtain ⟨before, rest⟩ := r'
  simp only [List.append_nil] at hafter hbefore
  subst hbefore
  refine ⟨kept, rest, hafter, hr', ?_, fun q hq => ?_⟩
  · have hwithin : Place.within o.before.reverse o.after ⟨o.piece.reverse, []⟩ ∈
        (tail.ends ⟨kept.reverse, rest⟩).map (.within o.before.reverse o.after) := by
      rw [ends_within htail]
      exact List.mem_filter.2 ⟨hmem, Place.isAhead_within _ _ _⟩
    obtain ⟨end', hend', hsame⟩ := List.mem_map.1 hwithin
    exact Place.within_injective _ _ hsame ▸ hend'
  · rw [hends ⟨[], o.piece⟩ hstart, List.findSome?_eq_some_iff]
    refine ⟨passed', _, others', hall', hq, fun x hx => ?_⟩
    refine List.head?_eq_none_iff.2 (List.filter_eq_nil_iff.2 fun y hy hpass => ?_)
    have hx' : x.within o.before.reverse o.after ∈ passed :=
      (List.mem_filter.1 (hpassed' ▸ List.mem_map_of_mem hx)).1
    have hy' : y.within o.before.reverse o.after ∈ tail.ends (x.within o.before.reverse o.after) :=
      (List.mem_filter.1 (ends_within htail _ _ _ ▸ List.mem_map_of_mem hy)).1
    have hread : y ∈ inner.ends ⟨[], o.piece⟩ := by
      rw [hinner]
      exact mem_ends_seq.2 ⟨x, by rw [hall']; exact List.mem_append_left _ hx, hy⟩
    have hne : y.after ≠ [] := by
      obtain ⟨before, after⟩ := y
      rintro rfl
      rw [eq_of_mem_ends hread, Place.passes, List.head?_reverse] at hpass
      exact absurd hpass (by simpa using hstop)
    have hpass' := (hguards.passes_within hfree hcuts h hstart hread hne).trans hpass
    have hnone := List.head?_eq_none_iff.1 (hpassed _ hx')
    exact List.filter_eq_nil_iff.1 hnone _ hy' hpass'

end Alone

end Phrase
end TaskDesk
