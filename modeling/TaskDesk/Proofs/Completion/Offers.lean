import Mathlib.Data.List.Perm.Subperm
import TaskDesk.Completion.Offer
import TaskDesk.Proofs.Text.Split

/-!
# Offers of a search

A search offers names of fields and tags in use. All of them stand in one order: the fields
as in their table, then the tags by their first occurrence. What is offered for a token are
the first eight in this order that answer to it. A tag answers to a token behind a mark if it
holds the rest of the token anywhere, and to another token if it begins with it, both in lower
case.

Results:
* `lastToken_eq_iff`: what the last token is.
* `place_name`, `place_marked`: the order in which fields and tags are offered.
* `forSearch_eq`: what answers to a token, taken out of the list of everything that can be offered.
* `IsOffer.eq`: the properties of an offer leave no choice.
* `suggest_search`: a search offers what answers to the last token, in order, none twice, up to
  eight, and leaves out nothing that comes before the last one offered.
-/

namespace TaskDesk

namespace Text

/-! ## First occurrences -/

section Repetitions

variable {α : Type} [DecidableEq α]

/-- What is dropped as a repetition does not depend on what a filter leaves out. -/
theorem distinctFrom_filter {p : α → Bool} {seen seen' : List α}
    (h : ∀ a, p a = true → (a ∈ seen ↔ a ∈ seen')) (ts : List α) :
    distinctFrom seen (ts.filter p) = (distinctFrom seen' ts).filter p := by
  induction ts generalizing seen seen' with
  | nil => rfl
  | cons t ts ih =>
    by_cases hp : p t = true
    · rw [List.filter_cons_of_pos hp, distinctFrom, distinctFrom]
      by_cases hseen : t ∈ seen'
      · rw [if_pos ((h t hp).2 hseen), if_pos hseen, ih h]
      · have hboth : ∀ a, p a = true → (a ∈ t :: seen ↔ a ∈ t :: seen') := fun a ha => by
          rw [List.mem_cons, List.mem_cons, h a ha]
        rw [if_neg (fun hmem => hseen ((h t hp).1 hmem)), if_neg hseen, List.filter_cons_of_pos hp,
          ih hboth]
    · rw [List.filter_cons_of_neg hp, distinctFrom]
      split
      · exact ih h
      · rw [List.filter_cons_of_neg hp]
        refine ih fun a ha => ?_
        rw [List.mem_cons, h a ha, or_iff_right]
        rintro rfl
        exact hp ha

theorem distinct_filter (p : α → Bool) (ts : List α) :
    distinct (ts.filter p) = (distinct ts).filter p :=
  distinctFrom_filter (fun _ _ => Iff.rfl) ts

variable [BEq α] [LawfulBEq α]

/-- Dropping repetitions keeps the order of first occurrences. -/
theorem pairwise_distinctFrom (seen ts : List α) :
    (distinctFrom seen ts).Pairwise fun a b => ts.idxOf a < ts.idxOf b := by
  induction ts generalizing seen with
  | nil => exact List.Pairwise.nil
  | cons t ts ih =>
    have hne : ∀ {seen a}, t ∈ seen → a ∈ distinctFrom seen ts → t ≠ a := by
      rintro seen a ht ha rfl
      exact ((mem_distinctFrom t seen ts).1 ha).2 ht
    have hlater : ∀ {seen}, t ∈ seen → (distinctFrom seen ts).Pairwise
        fun a b => (t :: ts).idxOf a < (t :: ts).idxOf b := by
      intro seen ht
      refine (ih seen).imp_of_mem fun ha hb hlt => ?_
      rw [List.idxOf_cons_ne _ (hne ht ha), List.idxOf_cons_ne _ (hne ht hb)]
      omega
    rw [distinctFrom]
    split
    · rename_i ht
      exact hlater ht
    · refine List.pairwise_cons.2 ⟨fun a ha => ?_, hlater List.mem_cons_self⟩
      rw [List.idxOf_cons_self, List.idxOf_cons_ne _ (hne List.mem_cons_self ha)]
      omega

theorem pairwise_distinct (ts : List α) :
    (distinct ts).Pairwise fun a b => ts.idxOf a < ts.idxOf b :=
  pairwise_distinctFrom [] ts

end Repetitions

/-! ## The last token -/

theorem lastToken_append (front t : Text) : lastToken (front ++ .char ' ' :: t) = lastToken t := by
  rw [lastToken, lastToken, split_append, List.getLast?_append_of_ne_nil _ (split_ne_nil ' ' t)]

theorem lastToken_of_not_mem {t : Text} (h : .char ' ' ∉ t) : lastToken t = t := by
  rw [lastToken, split_of_not_mem h]
  rfl

/-- The last token is the whole text, or what follows its last space. -/
theorem lastToken_eq_iff {t token : Text} :
    lastToken t = token ↔
      .char ' ' ∉ token ∧ (t = token ∨ ∃ front, t = front ++ .char ' ' :: token) := by
  constructor
  · rintro rfl
    obtain ⟨pieces, last, hsplit⟩ : ∃ pieces last, split ' ' t = pieces ++ [last] :=
      ⟨_, _, (List.dropLast_append_getLast (split_ne_nil ' ' t)).symm⟩
    have hlast : lastToken t = last := by rw [lastToken, hsplit, List.getLast?_concat]; rfl
    have htext : t = join ' ' (pieces ++ [last]) := by rw [← hsplit, join_split]
    rw [hlast]
    refine ⟨not_mem_of_mem_split t last (by simp [hsplit]), ?_⟩
    by_cases hpieces : pieces = []
    · rw [hpieces] at htext
      exact Or.inl htext
    · rw [join_append hpieces (List.cons_ne_nil last [])] at htext
      exact Or.inr ⟨_, htext⟩
  · rintro ⟨hspace, rfl | ⟨front, rfl⟩⟩
    · exact lastToken_of_not_mem hspace
    · rw [lastToken_append, lastToken_of_not_mem hspace]

end Text

namespace Completion

variable {token : Text} {tags : List Text}

/-! ## What can be offered, and when -/

/-- Everything that a search can offer, in order: the fields, then the tags in use. -/
def offerable (tags : List Text) : List Text := FilterField.all.map (·.name) ++ tags.map marked

/-- The place of a text among everything that can be offered. -/
def place (tags : List Text) (c : Text) : Nat := (offerable tags).idxOf c

/-- A tag answers to the token of a search. -/
def TagAnswers (token tag : Text) : Prop :=
  if token.head? = some (.char '#') then (Text.lower token).tail <:+: Text.lower tag
  else Text.lower token <+: Text.lower tag

instance (token tag : Text) : Decidable (TagAnswers token tag) :=
  inferInstanceAs (Decidable (ite (token.head? = some (.char '#'))
    ((Text.lower token).tail <:+: Text.lower tag) (Text.lower token <+: Text.lower tag)))

/-- A text is a field or a tag in use that answers to the token of a search. -/
inductive Answers (token : Text) (tags : List Text) (c : Text) : Prop where
  | field (f : FilterField) (isName : c = f.name) (holds : Text.lower token <:+: f.name)
  | tag (tag : Text) (inUse : tag ∈ tags) (isMarked : c = marked tag) (found : TagAnswers token tag)

theorem place_name (tags : List Text) (f : FilterField) :
    place tags f.name = FilterField.all.idxOf f := by
  have hname : f.name ∈ FilterField.all.map (·.name) := by cases f <;> decide
  rw [place, offerable, List.idxOf_append_of_mem hname]
  cases f <;> decide

theorem name_ne_marked (f : FilterField) (tag : Text) : f.name ≠ marked tag := by
  cases f <;> simp [marked, FilterField.name, String.toText]

theorem place_marked (tags : List Text) (tag : Text) :
    place tags (marked tag) = FilterField.all.length + tags.idxOf tag := by
  have hname : marked tag ∉ FilterField.all.map (·.name) := by
    intro h
    obtain ⟨f, -, hf⟩ := List.mem_map.1 h
    exact name_ne_marked f tag hf
  have hmap : (tags.map marked).idxOf (marked tag) = tags.idxOf tag := by
    induction tags with
    | nil => rfl
    | cons t tags ih =>
      by_cases ht : t = tag
      · rw [ht, List.map_cons, List.idxOf_cons_self, List.idxOf_cons_self]
      · have hmarked : marked t ≠ marked tag := fun h => ht (List.cons.inj h).2
        rw [List.map_cons, List.idxOf_cons_ne _ ht, List.idxOf_cons_ne _ hmarked, ih]
  rw [place, offerable, List.idxOf_append_of_notMem hname, hmap, List.length_map]

/-! ## What answers to a token -/

/-- Whether something that can be offered answers to the token. -/
def answersTo (token c : Text) : Bool :=
  match c with
  | .char '#' :: tag => TagAnswers token tag
  | _ => Text.contains (Text.lower token) c

theorem answersTo_name (token : Text) (f : FilterField) :
    answersTo token f.name = Text.contains (Text.lower token) f.name := by
  cases f <;> rfl

theorem answers_iff {c : Text} :
    Answers token tags c ↔ c ∈ offerable tags ∧ answersTo token c = true := by
  rw [offerable, List.mem_append]
  constructor
  · rintro (⟨f, rfl, hholds⟩ | ⟨tag, hused, rfl, hfound⟩)
    · rw [answersTo_name, Text.contains_iff]
      exact ⟨Or.inl (List.mem_map_of_mem (by cases f <;> decide)), hholds⟩
    · exact ⟨Or.inr (List.mem_map_of_mem hused), decide_eq_true hfound⟩
  · rintro ⟨hmem | hmem, hanswers⟩
    · obtain ⟨f, -, rfl⟩ := List.mem_map.1 hmem
      rw [answersTo_name, Text.contains_iff] at hanswers
      exact .field f rfl hanswers
    · obtain ⟨tag, hused, rfl⟩ := List.mem_map.1 hmem
      exact .tag tag hused rfl (of_decide_eq_true hanswers)

/-- What a search collects for a token is what answers to it, in order. -/
theorem forSearch_eq (token : Text) (tags : List Text) :
    forSearch token tags = (offerable tags).filter (answersTo token) := by
  have hfields : holding (Text.lower token) (FilterField.all.map (·.name)) =
      (FilterField.all.map (·.name)).filter (answersTo token) := by
    refine List.filter_congr fun c hc => ?_
    obtain ⟨f, -, rfl⟩ := List.mem_map.1 hc
    exact (answersTo_name token f).symm
  have htags (test : Text → Bool) (htest : ∀ tag, test tag = true ↔ TagAnswers token tag) :
      (tags.filter test).map marked = (tags.map marked).filter (answersTo token) := by
    rw [List.filter_map]
    refine congrArg _ (List.filter_congr fun tag _ => ?_)
    rw [Bool.eq_iff_iff, htest]
    exact decide_eq_true_iff.symm
  rw [offerable, List.filter_append, ← hfields]
  unfold forSearch
  dsimp only
  split
  · rw [htags]
    exact fun tag => by rw [Text.contains_iff]; rfl
  · rename_i hmark
    rw [htags]
    intro tag
    have hhead : token.head? ≠ some (.char '#') := by
      cases token with
      | nil => simp
      | cons c rest => exact fun h => hmark rest (by rw [Option.some.inj h])
    rw [List.isPrefixOf_iff_prefix, TagAnswers, if_neg hhead]

/-- What answers to a token, each text once and in order. -/
def answering (token : Text) (tags : List Text) : List Text :=
  (Text.distinct (offerable tags)).filter (answersTo token)

theorem mem_answering {c : Text} : c ∈ answering token tags ↔ Answers token tags c := by
  rw [answering, List.mem_filter, Text.mem_distinct, answers_iff]

theorem pairwise_answering (token : Text) (tags : List Text) :
    (answering token tags).Pairwise fun c d => place tags c < place tags d :=
  List.Pairwise.sublist List.filter_sublist (Text.pairwise_distinct (offerable tags))

/-! ## The offer -/

/-- The list is what a search has to offer for a token. -/
structure IsOffer (token : Text) (tags : List Text) (offers : List Text) : Prop where
  nodup : offers.Nodup
  short : offers.length ≤ 8
  answers : ∀ c ∈ offers, Answers token tags c
  ordered : offers.Pairwise fun c d => place tags c < place tags d
  /-- Only a full offer leaves something out, -/
  complete : offers.length < 8 → ∀ c, Answers token tags c → c ∈ offers
  /-- and this comes after everything that is offered. -/
  missing : ∀ c, Answers token tags c → c ∉ offers → ∀ d ∈ offers, place tags d < place tags c

/-- The first ones of a list in order come before all others. -/
theorem lt_of_not_mem_take {α : Type} {r : α → α → Prop} {l : List α} (h : l.Pairwise r) {n : Nat}
    {a : α} (ha : a ∈ l) (hmissing : a ∉ l.take n) : ∀ b ∈ l.take n, r b a := by
  rw [← List.take_append_drop n l, List.mem_append] at ha
  rw [← List.take_append_drop n l, List.pairwise_append] at h
  exact fun b hb => h.2.2 b hb a (ha.resolve_left hmissing)

/-- What is offered are the first eight texts that answer to the last token. -/
theorem suggest_search_eq {input : Text} (h : Text.lastToken input ≠ []) (tags : List Text) :
    suggest .search input tags = (answering (Text.lastToken input) tags).take 8 := by
  have hsome : (Text.lastToken input).isEmpty ≠ true := by rwa [ne_eq, List.isEmpty_iff]
  rw [suggest, if_neg hsome]
  change (Text.distinct (forSearch (Text.lastToken input) tags)).take maxOffers = _
  rw [forSearch_eq, Text.distinct_filter]
  rfl

/-- A search offers what it has to. -/
theorem isOffer_suggest {input : Text} (h : Text.lastToken input ≠ []) (tags : List Text) :
    IsOffer (Text.lastToken input) tags (suggest .search input tags) where
  nodup := nodup_suggest .search input tags
  short := length_suggest_le .search input tags
  answers := fun _ hc => mem_answering.1 (List.mem_of_mem_take (suggest_search_eq h tags ▸ hc))
  ordered := by
    rw [suggest_search_eq h]
    exact (pairwise_answering _ tags).sublist (List.take_sublist _ _)
  complete := fun hshort c hc => by
    rw [suggest_search_eq h, List.length_take] at hshort
    rw [suggest_search_eq h, List.take_of_length_le (by omega)]
    exact mem_answering.2 hc
  missing := fun _ hc hmissing => by
    rw [suggest_search_eq h] at hmissing ⊢
    exact lt_of_not_mem_take (pairwise_answering _ tags) (mem_answering.2 hc) hmissing

/-- What one offer holds is in every other one: the other would be full of what comes before it,
    and one of these the first offer would have to leave out. -/
theorem IsOffer.mem {offers offers' : List Text} (h : IsOffer token tags offers)
    (h' : IsOffer token tags offers') {c : Text} (hc : c ∈ offers) : c ∈ offers' := by
  have hanswers := h.answers c hc
  by_contra hmissing
  have hfull : 8 ≤ offers'.length :=
    Nat.le_of_not_lt fun hshort => hmissing (h'.complete hshort c hanswers)
  obtain ⟨d, hd, hleft⟩ : ∃ d ∈ offers', d ∉ offers := by
    by_contra hnone
    push Not at hnone
    have hlength : (c :: offers').length ≤ offers.length :=
      (List.subperm_of_subset (List.nodup_cons.2 ⟨hmissing, h'.nodup⟩)
        (List.cons_subset.2 ⟨hc, hnone⟩)).length_le
    have hshort := h.short
    rw [List.length_cons] at hlength
    omega
  have hbefore : place tags d < place tags c := h'.missing c hanswers hmissing d hd
  have hafter : place tags c < place tags d := h.missing d (h'.answers d hd) hleft c hc
  omega

/-- The properties of an offer leave no choice. -/
theorem IsOffer.eq {offers offers' : List Text} (h : IsOffer token tags offers)
    (h' : IsOffer token tags offers') : offers = offers' := by
  have hsame : offers.Perm offers' :=
    (List.perm_ext_iff_of_nodup h.nodup h'.nodup).2 fun _ => ⟨h.mem h', h'.mem h⟩
  exact hsame.eq_of_pairwise (fun _ _ _ _ hlt hgt => absurd hlt (Nat.lt_asymm hgt))
    h.ordered h'.ordered

/-- A search offers what answers to the last token: the fields, then the tags in use, none twice,
    and up to eight of them, from the first one on. It is the only such list, and it depends on
    nothing but the last token and the tags. -/
theorem suggest_search (input : Text) (tags : List Text) (h : Text.lastToken input ≠ []) :
    IsOffer (Text.lastToken input) tags (suggest .search input tags) ∧
      (∀ offers, IsOffer (Text.lastToken input) tags offers →
        offers = suggest .search input tags) ∧
      ∀ other, Text.lastToken other = Text.lastToken input →
        suggest .search other tags = suggest .search input tags := by
  have hoffer := isOffer_suggest h tags
  refine ⟨hoffer, fun offers hoffers => hoffers.eq hoffer, fun other hother => ?_⟩
  rw [suggest_search_eq h, suggest_search_eq (hother ▸ h), hother]

/-- Of nine tags that hold the letter behind the mark, in either case, the first eight are offered,
    and a tag that is in use twice is offered once. -/
theorem suggest_search_nine :
    Text.lastToken "bills #A".toText ≠ [] ∧
      suggest .search "bills #A".toText
          (["ma", "b", "A", "ma", "a1", "a2", "a3", "a4", "a5", "a6", "a7"].map String.toText) =
        ["#ma", "#A", "#a1", "#a2", "#a3", "#a4", "#a5", "#a6"].map String.toText ∧
      IsOffer "#A".toText
        (["ma", "b", "A", "ma", "a1", "a2", "a3", "a4", "a5", "a6", "a7"].map String.toText)
        (["#ma", "#A", "#a1", "#a2", "#a3", "#a4", "#a5", "#a6"].map String.toText) := by
  have htoken : Text.lastToken "bills #A".toText = "#A".toText := by decide
  have hsome : Text.lastToken "bills #A".toText ≠ [] := by decide
  have hoffers : suggest .search "bills #A".toText
      (["ma", "b", "A", "ma", "a1", "a2", "a3", "a4", "a5", "a6", "a7"].map String.toText) =
        ["#ma", "#A", "#a1", "#a2", "#a3", "#a4", "#a5", "#a6"].map String.toText := by decide
  refine ⟨hsome, hoffers, ?_⟩
  have hoffer := (suggest_search "bills #A".toText
    (["ma", "b", "A", "ma", "a1", "a2", "a3", "a4", "a5", "a6", "a7"].map String.toText) hsome).1
  rwa [htoken, hoffers] at hoffer

end Completion
end TaskDesk
