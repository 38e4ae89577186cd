import Mathlib.Data.List.Basic
import Mathlib.Data.List.TFAE
import Mathlib.Tactic.TFAE
import TaskDesk.Filter.Basic
import TaskDesk.Proofs.Text.Lower
import TaskDesk.Proofs.Text.Runs

/-!
# Canonical filters

Different queries can stand for the same filters, but each filters that a query
stands for can be written down as one query that stands for them again. They are
the canonical ones: the free text is words with single spaces between them, none
of which would be read as something else; tags are not empty; tags and project
are without blanks and in lower case.

Results:
* `ofWord_cases`: what a word of a query can be.
* `isCanonical_parse`: what a query stands for is canonical.
* `parse_query_of_isCanonical`: canonical filters are read back from their query.
* `parse_image`: three descriptions of the filters that queries stand for.
-/

namespace TaskDesk

/-! ## Words of a query -/

namespace FilterToken

/-- The beginnings of words that are no free text. -/
def openings : List Text :=
  ["#".toText, "priority:".toText, "project:".toText, "status:".toText, "due:".toText]

/-- The word is free text. -/
def IsPlain (word : Text) : Prop := ∀ opening ∈ openings, ¬ opening <+: word

theorem mem_openings {opening : Text} :
    opening ∈ openings ↔ opening = "#".toText ∨ ∃ f : FilterField, opening = f.opening := by
  constructor
  · intro h
    simp only [openings, List.mem_cons, List.not_mem_nil, or_false] at h
    rcases h with rfl | rfl | rfl | rfl | rfl
    · exact Or.inl rfl
    · exact Or.inr ⟨.priority, by decide⟩
    · exact Or.inr ⟨.project, by decide⟩
    · exact Or.inr ⟨.status, by decide⟩
    · exact Or.inr ⟨.due, by decide⟩
  · rintro (rfl | ⟨f, rfl⟩)
    · decide
    · cases f <;> decide

theorem isPlain_iff {word : Text} :
    IsPlain word ↔
      (∀ name, word ≠ .char '#' :: name) ∧ ∀ f : FilterField, ¬ f.opening <+: word := by
  have hash : ("#".toText <+: word) ↔ ∃ name, word = .char '#' :: name := by
    simp [String.toText, List.IsPrefix, eq_comm]
  constructor
  · intro h
    refine ⟨fun name hw => ?_, fun f => h _ (mem_openings.2 (Or.inr ⟨f, rfl⟩))⟩
    exact h _ (mem_openings.2 (Or.inl rfl)) (hash.2 ⟨name, hw⟩)
  · rintro ⟨hname, hfield⟩ opening hopening
    rcases mem_openings.1 hopening with rfl | ⟨f, rfl⟩
    · rw [hash]
      rintro ⟨name, hw⟩
      exact hname name hw
    · exact hfield f

theorem valueOf?_eq_some {f : FilterField} {word value : Text} (h : valueOf? f word = some value) :
    ∃ rest, word = f.opening ++ rest ∧ value = Text.lower rest := by
  unfold valueOf? at h
  split at h
  · rename_i hp
    obtain ⟨rest, rfl⟩ := List.isPrefixOf_iff_prefix.1 hp
    refine ⟨rest, rfl, ?_⟩
    simpa using h.symm
  · cases h

theorem valueOf?_eq_none {f : FilterField} {word : Text} :
    valueOf? f word = none ↔ ¬ f.opening <+: word := by
  simp [valueOf?, List.isPrefixOf_iff_prefix]

/-- What a word of a query can be: a tag, a field with a value, or free text. -/
theorem ofWord_cases (word : Text) :
    (∃ name, word = .char '#' :: name ∧
      ofWord word = if (Text.lower name).isEmpty then dropped else tag (Text.lower name)) ∨
    (∃ f rest, word = f.opening ++ rest ∧ ofWord word = setting f (Text.lower rest)) ∨
    (IsPlain word ∧ ofWord word = free word) := by
  unfold ofWord
  split
  · rename_i name
    exact Or.inl ⟨name, rfl, rfl⟩
  · rename_i hname
    right
    split
    · rename_i f value h
      obtain ⟨g, -, hg⟩ := List.exists_of_findSome?_eq_some h
      obtain ⟨v, hv, heq⟩ := Option.map_eq_some_iff.1 hg
      cases heq
      obtain ⟨rest, hw, rfl⟩ := valueOf?_eq_some hv
      exact Or.inl ⟨f, rest, hw, rfl⟩
    · rename_i h
      refine Or.inr ⟨isPlain_iff.2 ⟨hname, fun f => ?_⟩, rfl⟩
      have hf := List.findSome?_eq_none_iff.1 h f (by cases f <;> decide)
      exact valueOf?_eq_none.1 (Option.map_eq_none_iff.1 hf)

/-! ### What is read from a word -/

/-- A field is set to a value that it can have, or the word is dropped. -/
theorem setting_cases (f : FilterField) (value : Text) :
    setting f value = dropped ∨ (f = .project ∧ setting f value = project value) ∨
      (∃ p, setting f value = priority p) ∨ (∃ s, setting f value = status s) ∨
      ∃ b, setting f value = due b := by
  cases f with
  | project => exact Or.inr (Or.inl ⟨rfl, rfl⟩)
  | priority => cases h : Priority.ofName? value <;> simp [setting, h]
  | status => cases h : Status.ofName? value <;> simp [setting, h]
  | due => cases h : DueBucket.ofName? value <;> simp [setting, h]

theorem free?_setting (f : FilterField) (value : Text) : (setting f value).free? = none := by
  rcases setting_cases f value with h | ⟨-, h⟩ | ⟨_, h⟩ | ⟨_, h⟩ | ⟨_, h⟩ <;> rw [h] <;> rfl

theorem tag?_setting (f : FilterField) (value : Text) : (setting f value).tag? = none := by
  rcases setting_cases f value with h | ⟨-, h⟩ | ⟨_, h⟩ | ⟨_, h⟩ | ⟨_, h⟩ <;> rw [h] <;> rfl

theorem project?_setting {f : FilterField} {value v : Text}
    (hv : (setting f value).project? = some v) : f = .project ∧ v = value := by
  rcases setting_cases f value with h | ⟨hf, h⟩ | ⟨_, h⟩ | ⟨_, h⟩ | ⟨_, h⟩ <;> rw [h] at hv <;>
    cases hv
  exact ⟨hf, rfl⟩

theorem free?_ofWord {word v : Text} (h : (ofWord word).free? = some v) :
    v = word ∧ IsPlain word := by
  rcases ofWord_cases word with ⟨name, -, htoken⟩ | ⟨f, rest, -, htoken⟩ | ⟨hplain, htoken⟩
  · rw [htoken] at h
    split at h <;> cases h
  · rw [htoken, free?_setting] at h
    cases h
  · rw [htoken] at h
    cases h
    exact ⟨rfl, hplain⟩

theorem tag?_ofWord {word v : Text} (h : (ofWord word).tag? = some v) :
    ∃ name, word = .char '#' :: name ∧ v = Text.lower name ∧ v ≠ [] := by
  rcases ofWord_cases word with ⟨name, hw, htoken⟩ | ⟨f, rest, -, htoken⟩ | ⟨-, htoken⟩
  · rw [htoken] at h
    split at h
    · cases h
    · rename_i hne
      cases h
      exact ⟨name, hw, rfl, by simpa using hne⟩
  · rw [htoken, tag?_setting] at h
    cases h
  · rw [htoken] at h
    cases h

theorem project?_ofWord {word v : Text} (h : (ofWord word).project? = some v) :
    ∃ rest, word = FilterField.project.opening ++ rest ∧ v = Text.lower rest := by
  rcases ofWord_cases word with ⟨name, hw, htoken⟩ | ⟨f, rest, hw, htoken⟩ | ⟨-, htoken⟩
  · rw [htoken] at h
    split at h <;> cases h
  · rw [htoken] at h
    obtain ⟨rfl, rfl⟩ := project?_setting h
    exact ⟨rest, hw, rfl⟩
  · rw [htoken] at h
    cases h

theorem ofWord_of_isPlain {word : Text} (h : IsPlain word) : ofWord word = free word := by
  obtain ⟨hname, hfield⟩ := isPlain_iff.1 h
  rcases ofWord_cases word with ⟨name, hw, -⟩ | ⟨f, rest, hw, -⟩ | ⟨-, hfree⟩
  · exact absurd hw (hname name)
  · exact absurd ⟨rest, hw.symm⟩ (hfield f)
  · exact hfree

theorem ofWord_tag {name : Text} (hne : name ≠ []) (hlower : Text.lower name = name) :
    ofWord ("#".toText ++ name) = tag name := by
  have hword : "#".toText ++ name = .char '#' :: name := rfl
  rw [hword, ofWord, hlower, if_neg (by simpa using hne)]

/-- No beginning of a field is the beginning of another one. -/
theorem valueOf?_opening (f g : FilterField) (rest : Text) :
    valueOf? f (g.opening ++ rest) = if f = g then some (Text.lower rest) else none := by
  cases f <;> cases g <;> rfl

theorem ofWord_opening (f : FilterField) (rest : Text) :
    ofWord (f.opening ++ rest) = setting f (Text.lower rest) := by
  have hfind : (FilterField.all.findSome? fun g =>
      (valueOf? g (f.opening ++ rest)).map fun value => (g, value)) =
        some (f, Text.lower rest) := by
    simp only [valueOf?_opening]
    cases f <;> rfl
  cases f <;> (unfold ofWord; rw [hfind]; rfl)

end FilterToken

/-! ## Canonical filters -/

namespace Filters

open FilterToken

/-- Filters that say all they say in the plainest way. -/
structure IsCanonical (f : Filters) : Prop where
  spaced : Text.join ' ' (Text.tokens f.text) = f.text
  plain : ∀ word ∈ Text.tokens f.text, IsPlain word
  tags : ∀ tag ∈ f.tags,
    tag ≠ [] ∧ (∀ c ∈ tag, isBlank c = false) ∧ Text.lower tag = tag
  project : ∀ name ∈ f.project, (∀ c ∈ name, isBlank c = false) ∧ Text.lower name = name

/-- What the words of the query for the filters say. -/
def sayings (f : Filters) : List FilterToken :=
  (Text.tokens f.text).map free ++ f.tags.map tag ++
    (f.priority.map FilterToken.priority).toList ++ (f.project.map FilterToken.project).toList ++
    (f.status.map FilterToken.status).toList ++ (f.due.map FilterToken.due).toList

theorem getLast?_toList {α : Type} (o : Option α) : o.toList.getLast? = o := by
  cases o <;> rfl

theorem filterMap_toList_map {α β γ : Type} (g : α → β) (pick : β → Option γ) (o : Option α) :
    (o.map g).toList.filterMap pick = (o.bind fun a => pick (g a)).toList := by
  cases o with
  | none => rfl
  | some a => cases h : pick (g a) <;> simp [h]

theorem ofTokens_sayings {f : Filters} (h : Text.join ' ' (Text.tokens f.text) = f.text) :
    ofTokens f.sayings = f := by
  simp [ofTokens, sayings, Function.comp_def, filterMap_toList_map, free?, tag?, priority?,
    project?, status?, due?, getLast?_toList, h]

/-! ## What queries stand for is canonical -/

theorem exists_of_mem_filterMap {α : Type} {pick : FilterToken → Option α} {query : Text} {a : α}
    (h : a ∈ ((Text.tokens query).map ofWord).filterMap pick) :
    ∃ word ∈ Text.tokens query, pick (ofWord word) = some a := by
  obtain ⟨token, hmem, hpick⟩ := List.mem_filterMap.1 h
  obtain ⟨word, hword, rfl⟩ := List.mem_map.1 hmem
  exact ⟨word, hword, hpick⟩

/-- Words without blanks are found again in the text in which they stand between
    spaces. -/
theorem tokens_join {words : List Text}
    (h : ∀ word ∈ words, word ≠ [] ∧ ∀ c ∈ word, isBlank c = false) :
    Text.tokens (Text.join ' ' words) = words := by
  rw [Text.tokens, Text.runs_join (by decide), Text.flatMap_runs]
  intro word hword
  obtain ⟨hne, hblank⟩ := h word hword
  exact ⟨hne, fun c hc => by simpa using hblank c hc⟩

theorem tokens_text_parse (query : Text) :
    Text.tokens (parse query).text =
      ((Text.tokens query).map ofWord).filterMap free? := by
  apply tokens_join
  intro word hword
  obtain ⟨w, hw, hfree⟩ := exists_of_mem_filterMap hword
  obtain ⟨rfl, -⟩ := free?_ofWord hfree
  exact ⟨Text.tokens_ne_nil query word hw, Text.not_isBlank_of_mem_tokens query word hw⟩

/-- **What a query stands for is canonical.** -/
theorem isCanonical_parse (query : Text) : (parse query).IsCanonical where
  spaced := by rw [tokens_text_parse]; rfl
  plain := by
    rw [tokens_text_parse]
    intro word hword
    obtain ⟨w, -, hfree⟩ := exists_of_mem_filterMap hword
    obtain ⟨rfl, hplain⟩ := free?_ofWord hfree
    exact hplain
  tags := by
    intro name hname
    obtain ⟨word, hword, htag⟩ := exists_of_mem_filterMap hname
    obtain ⟨rest, rfl, rfl, hne⟩ := tag?_ofWord htag
    have hblank := Text.not_isBlank_of_mem_tokens query _ hword
    exact ⟨hne, Text.not_isBlank_lower fun c hc => hblank c (by simp [hc]), Text.lower_lower rest⟩
  project := by
    intro name hname
    obtain ⟨word, hword, hproject⟩ := exists_of_mem_filterMap (List.mem_of_getLast? hname)
    obtain ⟨rest, rfl, rfl⟩ := project?_ofWord hproject
    have hblank := Text.not_isBlank_of_mem_tokens query _ hword
    exact ⟨Text.not_isBlank_lower fun c hc => hblank c (by simp [hc]), Text.lower_lower rest⟩

/-! ## Canonical filters are read back -/

theorem map_ofWord_tokens {word : Text} {token : FilterToken} (hne : word ≠ [])
    (hblank : ∀ c ∈ word, isBlank c = false) (h : ofWord word = token) :
    (Text.tokens word).map ofWord = [token] := by
  rw [Text.tokens, Text.runs_of_forall hne fun c hc => by simpa using hblank c hc]
  simp [h]

theorem map_ofWord_tag {name : Text} (hne : name ≠ []) (hblank : ∀ c ∈ name, isBlank c = false)
    (hlower : Text.lower name = name) :
    (Text.tokens ("#".toText ++ name)).map ofWord = [tag name] := by
  have hhash : ∀ c ∈ "#".toText, isBlank c = false := by decide
  apply map_ofWord_tokens (by simp [hne]) _ (ofWord_tag hne hlower)
  intro c hc
  rcases List.mem_append.1 hc with hc | hc
  · exact hhash c hc
  · exact hblank c hc

theorem map_ofWord_field (f : FilterField) {value : Text}
    (hblank : ∀ c ∈ value, isBlank c = false) (hlower : Text.lower value = value) :
    (Text.tokens (f.opening ++ value)).map ofWord = [setting f value] := by
  have hopening : f.opening ≠ [] ∧ ∀ c ∈ f.opening, isBlank c = false := by cases f <;> decide
  apply map_ofWord_tokens (by simp [hopening.1])
  · intro c hc
    rcases List.mem_append.1 hc with hc | hc
    · exact hopening.2 c hc
    · exact hblank c hc
  · rw [ofWord_opening, hlower]

/-- Words that are written one for each member of a list say what each of them says. -/
theorem flatMap_tokens {α : Type} {l : List α} {write : α → Text} {say : α → FilterToken}
    (h : ∀ a ∈ l, (Text.tokens (write a)).map ofWord = [say a]) :
    (l.map write).flatMap (fun word => (Text.tokens word).map ofWord) = l.map say := by
  rw [List.flatMap_map, List.map_eq_flatMap]
  exact List.flatMap_congr h

/-- The query for canonical filters says just what they say. -/
theorem IsCanonical.map_ofWord {f : Filters} (h : f.IsCanonical) :
    (Text.tokens f.query).map ofWord = f.sayings := by
  have text : (if f.text.isEmpty then [] else [f.text]).flatMap
      (fun word => (Text.tokens word).map ofWord) = (Text.tokens f.text).map free := by
    have hplain : (Text.tokens f.text).map ofWord = (Text.tokens f.text).map free :=
      List.map_congr_left fun word hword => ofWord_of_isPlain (h.plain word hword)
    split
    · rename_i hempty
      rw [List.isEmpty_iff.1 hempty]
      rfl
    · simpa using hplain
  have tags : ∀ name ∈ f.tags,
      (Text.tokens ("#".toText ++ name)).map ofWord = [tag name] := by
    intro name hname
    obtain ⟨hne, hblank, hlower⟩ := h.tags name hname
    exact map_ofWord_tag hne hblank hlower
  have priority : ∀ p ∈ f.priority.toList,
      (Text.tokens (FilterField.priority.opening ++ p.name)).map ofWord = [.priority p] := by
    intro p _
    cases p <;> exact map_ofWord_field .priority (by decide) (by decide)
  have project : ∀ name ∈ f.project.toList,
      (Text.tokens (FilterField.project.opening ++ name)).map ofWord = [.project name] := by
    intro name hname
    obtain ⟨hblank, hlower⟩ := h.project name (Option.mem_toList.1 hname)
    exact map_ofWord_field .project hblank hlower
  have status : ∀ s ∈ f.status.toList,
      (Text.tokens (FilterField.status.opening ++ s.name)).map ofWord = [.status s] := by
    intro s _
    cases s <;> exact map_ofWord_field .status (by decide) (by decide)
  have due : ∀ b ∈ f.due.toList,
      (Text.tokens (FilterField.due.opening ++ b.name)).map ofWord = [.due b] := by
    intro b _
    cases b <;> exact map_ofWord_field .due (by decide) (by decide)
  rw [query, Text.tokens, Text.runs_join (by decide), List.map_flatMap]
  simp only [words, sayings, List.flatMap_append, Option.toList_map]
  rw [← text, ← flatMap_tokens tags, ← flatMap_tokens priority, ← flatMap_tokens project,
    ← flatMap_tokens status, ← flatMap_tokens due]
  rfl

/-- **Canonical filters are read back from their query.** -/
theorem parse_query_of_isCanonical {f : Filters} (h : f.IsCanonical) : parse f.query = f := by
  rw [parse, h.map_ofWord, ofTokens_sayings h.spaced]

/-- **The filters that queries stand for.** They are the filters that their own
    query stands for, and the canonical ones; so writing down what a query stands
    for and reading it again changes nothing. -/
theorem parse_image :
    (∀ f : Filters, [∃ query, parse query = f, parse f.query = f, f.IsCanonical].TFAE) ∧
      ∀ query, parse (parse query).query = parse query := by
  constructor
  · intro f
    tfae_have 1 → 3 := by
      rintro ⟨query, rfl⟩
      exact isCanonical_parse query
    tfae_have 3 → 2 := parse_query_of_isCanonical
    tfae_have 2 → 1 := fun h => ⟨f.query, h⟩
    tfae_finish
  · intro query
    exact parse_query_of_isCanonical (isCanonical_parse query)

end Filters
end TaskDesk
