import TaskDesk.Proofs.Filter.Canonical
import TaskDesk.Proofs.Text.Split

/-!
# Queries in parts

A query in two parts with blanks between them says what the parts say: their free text
and their tags one after the other, and of each field what was set last. A token that says
nothing leaves no trace, so only the order among tokens of one kind matters.

Results:
* `Filters.ofTokens_append`: what two lists of tokens say together.
* `Filters.parse_append`: what a query in two parts says.
* `Filters.parse_congr`: what matters of the order of tokens.
* `Filters.parse_in_parts`: both for all queries.
-/

namespace TaskDesk

namespace Text

theorem join_eq_nil_iff {sep : CodePoint} {ts : List Text} (h : ∀ t ∈ ts, t ≠ []) :
    join sep ts = [] ↔ ts = [] := by
  cases ts with
  | nil => simp [join]
  | cons t ts => cases ts <;> simp [join, h t List.mem_cons_self]

/-- Blanks between two texts keep their tokens apart. -/
theorem tokens_append_blanks {blanks : Text} (hne : blanks ≠ [])
    (hblanks : ∀ c ∈ blanks, isBlank c = true) (s t : Text) :
    tokens (s ++ blanks ++ t) = tokens s ++ tokens t := by
  have hout : ∀ c ∈ blanks, (!isBlank c) = false := fun c hc => by rw [hblanks c hc]; rfl
  have hnone : runs (fun c => !isBlank c) blanks = [] := runs_eq_nil hout
  have hlast : (s ++ blanks).getLast?.any (fun c => !isBlank c) = false := by
    rw [List.getLast?_append, List.getLast?_eq_some_getLast hne]
    exact hout _ (List.getLast_mem hne)
  rw [tokens, runs_append (apart_of_last hlast), runs_append (apart_of_head (head?_of_forall hout)),
    hnone, List.append_nil]
  rfl

end Text

/-! ## Tokens of one kind -/

namespace FilterToken

instance (word : Text) : Decidable (IsPlain word) :=
  inferInstanceAs (Decidable (∀ opening ∈ openings, ¬ opening <+: word))

/-- The field that a token sets. -/
def field? : FilterToken → Option FilterField
  | priority _ => some .priority
  | project _ => some .project
  | status _ => some .status
  | due _ => some .due
  | tag _ | free _ | dropped => none

theorem field?_setting {f g : FilterField} {value : Text} (h : (setting f value).field? = some g) :
    f = g := by
  cases f with
  | project => exact Option.some.inj h
  | priority => cases hv : Priority.ofName? value <;> rw [setting, hv] at h <;> cases h; rfl
  | status => cases hv : Status.ofName? value <;> rw [setting, hv] at h <;> cases h; rfl
  | due => cases hv : DueBucket.ofName? value <;> rw [setting, hv] at h <;> cases h; rfl

/-- A word that sets a field begins as such words do. -/
theorem opening_of_field? {word : Text} {f : FilterField} (h : (ofWord word).field? = some f) :
    f.opening <+: word := by
  rcases ofWord_cases word with ⟨name, -, htoken⟩ | ⟨g, rest, rfl, htoken⟩ | ⟨-, htoken⟩
  · rw [htoken] at h
    split at h <;> cases h
  · rw [htoken] at h
    rw [field?_setting h]
    exact List.prefix_append _ _
  · rw [htoken] at h
    cases h

/-- What is picked from words of one kind only is picked from the words of that kind. -/
theorem filterMap_ofWord_congr {α : Type} (pick : FilterToken → Option α) {kind : Text → Prop}
    [DecidablePred kind] (hkind : ∀ word a, pick (ofWord word) = some a → kind word)
    {words words' : List Text} (h : words.filter (kind ·) = words'.filter (kind ·)) :
    (words.map ofWord).filterMap pick = (words'.map ofWord).filterMap pick := by
  have hfilter : ∀ ws : List Text,
      (ws.map ofWord).filterMap pick = ((ws.filter (kind ·)).map ofWord).filterMap pick := by
    intro ws
    rw [List.filterMap_map, List.filterMap_map, List.filterMap_filter]
    refine List.filterMap_congr fun word _ => ?_
    by_cases hword : kind word
    · rw [if_pos (decide_eq_true hword)]
    · rw [if_neg (by simpa using hword), Function.comp_apply, Option.eq_none_iff_forall_ne_some]
      exact fun a ha => hword (hkind word a ha)
  rw [hfilter words, hfilter words', h]

end FilterToken

namespace Filters

open FilterToken

/-! ## Filters that come together -/

/-- What two filters say one after the other: their texts with a space between them, unless
    one is empty, their tags, and of each field what was set last. -/
def merge (f g : Filters) : Filters where
  text := Text.join ' ' ([f.text, g.text].filter fun t => !t.isEmpty)
  tags := f.tags ++ g.tags
  priority := g.priority.or f.priority
  project := g.project.or f.project
  status := g.status.or f.status
  due := g.due.or f.due

theorem join_words_append {ws vs : List Text} (hws : ∀ w ∈ ws, w ≠ []) (hvs : ∀ v ∈ vs, v ≠ []) :
    Text.join ' ' (ws ++ vs) =
      Text.join ' ' ([Text.join ' ' ws, Text.join ' ' vs].filter fun t => !t.isEmpty) := by
  cases hws' : ws with
  | nil => cases hvs' : Text.join ' ' vs <;> simp [Text.join, hvs']
  | cons w ws =>
    cases hvs' : vs with
    | nil => cases hw : Text.join ' ' (w :: ws) <;> simp [Text.join, hw]
    | cons v vs =>
      subst hws' hvs'
      have hw : Text.join ' ' (w :: ws) ≠ [] := mt (Text.join_eq_nil_iff hws).1 (List.cons_ne_nil w ws)
      have hv : Text.join ' ' (v :: vs) ≠ [] := mt (Text.join_eq_nil_iff hvs).1 (List.cons_ne_nil v vs)
      rw [Text.join_append (List.cons_ne_nil w ws) (List.cons_ne_nil v vs),
        List.filter_cons_of_pos (by simpa using hw), List.filter_cons_of_pos (by simpa using hv)]
      rfl

/-- **Tokens one after the other** say what both lists of them say. -/
theorem ofTokens_append {earlier later : List FilterToken}
    (hearlier : ∀ w ∈ earlier.filterMap free?, w ≠ []) (hlater : ∀ w ∈ later.filterMap free?, w ≠ []) :
    ofTokens (earlier ++ later) = (ofTokens earlier).merge (ofTokens later) := by
  simp only [ofTokens, merge, List.filterMap_append, List.getLast?_append,
    join_words_append hearlier hlater]

theorem ne_nil_of_mem_free {query w : Text}
    (hw : w ∈ ((Text.tokens query).map ofWord).filterMap free?) : w ≠ [] := by
  obtain ⟨word, hword, hfree⟩ := exists_of_mem_filterMap hw
  rw [(free?_ofWord hfree).1]
  exact Text.tokens_ne_nil query word hword

/-- A query in two parts says what they say one after the other. -/
theorem parse_append {blanks : Text} (hne : blanks ≠ []) (hblanks : ∀ c ∈ blanks, isBlank c = true)
    (query query' : Text) :
    parse (query ++ blanks ++ query') = (parse query).merge (parse query') := by
  rw [parse, Text.tokens_append_blanks hne hblanks, List.map_append,
    ofTokens_append (fun _ => ne_nil_of_mem_free) fun _ => ne_nil_of_mem_free]
  rfl

/-! ## The order of tokens -/

/-- Two queries that have the same words of each kind in the same order say the same. -/
theorem parse_congr {query query' : Text}
    (hplain : (Text.tokens query).filter (IsPlain ·) = (Text.tokens query').filter (IsPlain ·))
    (hopen : ∀ opening ∈ openings, (Text.tokens query).filter (opening <+: ·) =
      (Text.tokens query').filter (opening <+: ·)) : parse query = parse query' := by
  have hfield : ∀ f : FilterField, (Text.tokens query).filter (f.opening <+: ·) =
      (Text.tokens query').filter (f.opening <+: ·) :=
    fun f => hopen _ (mem_openings.2 (Or.inr ⟨f, rfl⟩))
  have htext := filterMap_ofWord_congr free? (fun _ _ h => (free?_ofWord h).2) hplain
  have htags := filterMap_ofWord_congr tag?
    (fun word a h => by
      obtain ⟨name, rfl, -⟩ := tag?_ofWord h
      exact List.prefix_append _ _)
    (hopen "#".toText (mem_openings.2 (Or.inl rfl)))
  have hsets : ∀ {α : Type} (pick : FilterToken → Option α) (f : FilterField),
      (∀ token a, pick token = some a → token.field? = some f) →
        ((Text.tokens query).map ofWord).filterMap pick =
          ((Text.tokens query').map ofWord).filterMap pick := fun pick f hpick =>
    filterMap_ofWord_congr pick (fun _ a h => opening_of_field? (hpick _ a h)) (hfield f)
  have hpriority := hsets priority? .priority fun token a h => by cases token <;> cases h; rfl
  have hproject := hsets project? .project fun token a h => by cases token <;> cases h; rfl
  have hstatus := hsets status? .status fun token a h => by cases token <;> cases h; rfl
  have hdue := hsets due? .due fun token a h => by cases token <;> cases h; rfl
  simp only [parse, ofTokens, htext, htags, hpriority, hproject, hstatus, hdue]

/-- **Queries in parts.** A query in two parts with blanks between them says what the parts say
    one after the other. And a query says the same when its tokens are put in another order
    that keeps the free words in their order, the tags in theirs, and the tokens that begin
    as the ones that set a field, whatever they set it to, in theirs. -/
theorem parse_in_parts :
    (∀ query blanks query' : Text, blanks ≠ [] → (∀ c ∈ blanks, isBlank c = true) →
      parse (query ++ blanks ++ query') = (parse query).merge (parse query')) ∧
    ∀ query query' : Text,
      (Text.tokens query).filter (IsPlain ·) = (Text.tokens query').filter (IsPlain ·) →
      (∀ opening ∈ openings, (Text.tokens query).filter (opening <+: ·) =
        (Text.tokens query').filter (opening <+: ·)) → parse query = parse query' :=
  ⟨fun query _ query' hne hblanks => parse_append hne hblanks query query',
    fun _ _ hplain hopen => parse_congr hplain hopen⟩

theorem parse_in_parts_errands :
    let query := "buy #Home priority:high project:flat".toText
    let blanks : Text := ['\t', ' ', '\u2003']
    let query' := "PRIORITY priority:Low # milk project: due:soon".toText
    let mixed := "project:flat #Home due:soon buy priority:high PRIORITY # priority:Low project: milk".toText
    blanks ≠ [] ∧ (∀ c ∈ blanks, isBlank c = true) ∧
      parse (query ++ blanks ++ query') =
        { text := "buy PRIORITY milk".toText, tags := ["home".toText], priority := some .low,
          project := some [] } ∧
      parse mixed = parse (query ++ blanks ++ query') := by
  intro query blanks query' mixed
  have hne : blanks ≠ [] := by decide
  have hblanks : ∀ c ∈ blanks, isBlank c = true := by decide
  refine ⟨hne, hblanks, ?_, parse_in_parts.2 mixed _ (by decide +kernel) (by decide +kernel)⟩
  rw [parse_in_parts.1 query blanks query' hne hblanks]
  decide +kernel

end Filters
end TaskDesk
