import TaskDesk.Completion.Apply
import TaskDesk.Proofs.Filter.Canonical
import TaskDesk.Proofs.Text.Split
import TaskDesk.Proofs.Text.Words

/-!
# Completions of a search

A completion of a search takes the place of the last token of the input, and the
query is read again. It then says what the rest of the input said and what the
completion was offered for, a tag or the value of a field. This holds of all
names without blanks. A name with a blank in it falls apart when the query is
read, for no part of a query can be quoted, and a tag without a name is dropped.

Results:
* `tokens_replaceLastToken`: the tokens of the input after a completion.
* `replaceLastToken_replaceLastToken`: a token that was started can be completed.
* `parse_marked`, `parse_option`: what a query says after a completion.
* `parse_chosen`: completions say what they were offered for just where their
  names hold no blank.
-/

namespace TaskDesk

open FilterToken

namespace Text

/-! ## The last token -/

/-- The text without its last token and the space before it. -/
def withoutLastToken (t : Text) : Text := join ' ' (split ' ' t).dropLast

/-- The last token is cut off where a space stood, so no token of the rest changes. -/
theorem tokens_replaceLastToken (t replacement : Text) :
    tokens (replaceLastToken t replacement ++ " ".toText) =
      tokens (withoutLastToken t) ++ tokens replacement := by
  have hspace : (!isBlank ' ') = false := by decide
  have hend : tokens (replaceLastToken t replacement ++ " ".toText) =
      tokens (replaceLastToken t replacement) := by
    rw [tokens, show " ".toText = [.char ' '] from rfl, runs_append_cons hspace]
    exact List.append_nil _
  rw [hend, replaceLastToken, withoutLastToken, tokens, tokens, runs_join hspace, runs_join hspace,
    List.flatMap_append, List.flatMap_singleton]
  rfl

/-- Of two replacements of the last token the second one stays. -/
theorem replaceLastToken_replaceLastToken (t : Text) {started : Text} (h : .char ' ' ∉ started)
    (replacement : Text) :
    replaceLastToken (replaceLastToken t started) replacement = replaceLastToken t replacement := by
  have hpieces : ∀ piece ∈ (split ' ' t).dropLast ++ [started], .char ' ' ∉ piece := by
    rw [List.forall_mem_append]
    refine ⟨fun piece hpiece => ?_, by simpa using h⟩
    exact not_mem_of_mem_split t piece (List.dropLast_subset _ hpiece)
  have hsplit : split ' ' (replaceLastToken t started) = (split ' ' t).dropLast ++ [started] :=
    split_join (by simp) hpieces
  rw [replaceLastToken, hsplit, List.dropLast_concat]
  rfl

/-! ## Blanks in lower case -/

theorem lowerPoint_of_isBlank {c : CodePoint} (h : isBlank c = true) : lowerPoint c = c :=
  forall_of_isBlank (p := fun c => lowerPoint c = c) (by decide +kernel) h

theorem mem_lowerAfter_of_isBlank {t : Text} {c : CodePoint} (hblank : isBlank c = true)
    (hc : c ∈ t) (b : Bool) : c ∈ lowerAfter b t := by
  induction t generalizing b with
  | nil => cases hc
  | cons d t ih =>
    rw [lowerAfter_cons, List.mem_append]
    rcases List.mem_cons.1 hc with rfl | hc
    · have hsigma : c ≠ 'Σ' := by rintro rfl; revert hblank; decide
      have hdot : c ≠ '\u0130' := by rintro rfl; revert hblank; decide
      rw [lowerLetter, if_neg hsigma, if_neg hdot, lowerPoint_of_isBlank hblank]
      exact Or.inl (List.mem_singleton_self c)
    · exact Or.inr (ih hc _)

/-- Lower-casing keeps blanks and writes none of its own. -/
theorem forall_not_isBlank_lower {t : Text} :
    (∀ c ∈ lower t, isBlank c = false) ↔ ∀ c ∈ t, isBlank c = false := by
  refine ⟨fun h c hc => ?_, not_isBlank_lower⟩
  by_contra hblank
  have hblank : isBlank c = true := by simpa using hblank
  have hkept := h c (mem_lowerAfter_of_isBlank hblank hc false)
  rw [hblank] at hkept
  cases hkept

theorem lower_eq_nil {t : Text} : lower t = [] ↔ t = [] := by
  refine ⟨fun h => ?_, fun h => by rw [h]; rfl⟩
  have hlength := length_le_length_lower t
  rw [h] at hlength
  exact List.eq_nil_of_length_eq_zero (Nat.le_zero.1 hlength)

end Text

namespace Filters

/-! ## One more thing to look for -/

/-- The filters with one more tag. -/
def withTag (f : Filters) (name : Text) : Filters := { f with tags := f.tags ++ [name] }

/-- The filters with a field set. -/
def withField (f : Filters) (value : Text) : FilterField → Filters
  | .priority => { f with priority := Priority.ofName? value }
  | .project => { f with project := some value }
  | .status => { f with status := Status.ofName? value }
  | .due => { f with due := DueBucket.ofName? value }

theorem filterMap_concat {α : Type} (pick : FilterToken → Option α) (tokens : List FilterToken)
    (token : FilterToken) :
    (tokens ++ [token]).filterMap pick = tokens.filterMap pick ++ (pick token).toList := by
  cases h : pick token <;> simp [h]

/-- What a token that is no free text adds to the filters. -/
theorem ofTokens_concat (tokens : List FilterToken) {token : FilterToken} (h : token.free? = none) :
    ofTokens (tokens ++ [token]) =
      { text := (ofTokens tokens).text
        tags := (ofTokens tokens).tags ++ token.tag?.toList
        priority := token.priority?.or (ofTokens tokens).priority
        project := token.project?.or (ofTokens tokens).project
        status := token.status?.or (ofTokens tokens).status
        due := token.due?.or (ofTokens tokens).due } := by
  simp only [ofTokens, filterMap_concat, h, Option.toList_none, List.append_nil,
    List.getLast?_append, getLast?_toList]

theorem ofTokens_append_tag (tokens : List FilterToken) (name : Text) :
    ofTokens (tokens ++ [.tag name]) = (ofTokens tokens).withTag name :=
  ofTokens_concat tokens rfl

/-- A token that sets a field does so, unless it is dropped. -/
theorem ofTokens_append_setting (tokens : List FilterToken) {field : FilterField} {value : Text}
    (h : setting field value ≠ .dropped) :
    ofTokens (tokens ++ [setting field value]) = (ofTokens tokens).withField value field := by
  rw [ofTokens_concat tokens (free?_setting field value), tag?_setting]
  cases field with
  | project => simp [withField, setting, priority?, project?, status?, due?]
  | priority => cases hp : Priority.ofName? value <;>
      simp_all [withField, setting, priority?, project?, status?, due?]
  | status => cases hs : Status.ofName? value <;>
      simp_all [withField, setting, priority?, project?, status?, due?]
  | due => cases hb : DueBucket.ofName? value <;>
      simp_all [withField, setting, priority?, project?, status?, due?]

/-! ## Queries after a completion -/

/-- A query after a completion says what it said without its last token, and then what
    the completion says. -/
theorem parse_replaceLastToken (input replacement : Text) :
    parse (Text.replaceLastToken input replacement ++ " ".toText) =
      ofTokens ((Text.tokens (Text.withoutLastToken input)).map ofWord ++
        (Text.tokens replacement).map ofWord) := by
  rw [parse, Text.tokens_replaceLastToken, List.map_append]

end Filters

namespace Completion

open Filters

variable {input name value : Text} {field : FilterField}

theorem ofName?_marked (name : Text) : FilterField.ofName? (marked name) = none := by
  rw [FilterField.ofName?, List.find?_eq_none]
  intro f _
  cases f <;> simp [marked, FilterField.name, String.toText]

/-- A chosen tag without blanks is one more tag to look for. -/
theorem parse_marked (hne : name ≠ []) (hblank : ∀ c ∈ name, isBlank c = false)
    (names : List Text) :
    parse (apply .search input (marked name) names).text =
      (parse (Text.withoutLastToken input)).withTag (Text.lower name) := by
  have htoken : ofWord (marked name) = .tag (Text.lower name) := by
    have hlower : (Text.lower name).isEmpty = false := by
      simpa using fun h => hne (Text.lower_eq_nil.1 h)
    rw [marked, ofWord, hlower]
    rfl
  have hword : ∀ c ∈ marked name, isBlank c = false := by
    rw [marked, List.forall_mem_cons]
    exact ⟨by decide, hblank⟩
  simp only [apply, ofName?_marked]
  rw [parse_replaceLastToken, map_ofWord_tokens (by simp [marked]) hword htoken]
  exact ofTokens_append_tag _ _

/-- A value on offer is the name of a project in lower case, or one of the fixed values of
    another field, which are written without blanks. -/
theorem mem_options_cases {names : List Text} (h : value ∈ options names field) :
    Text.lower value = value ∧ setting field value ≠ .dropped ∧
      (field = .project ∨ ∀ c ∈ value, isBlank c = false) := by
  have fixed : ∀ f ∈ [FilterField.priority, .status, .due], ∀ v ∈ options [] f,
      Text.lower v = v ∧ setting f v ≠ .dropped ∧ ∀ c ∈ v, isBlank c = false := by decide
  have hother : field ∈ [FilterField.priority, .status, .due] → value ∈ options [] field →
      Text.lower value = value ∧ setting field value ≠ .dropped ∧
        (field = .project ∨ ∀ c ∈ value, isBlank c = false) := by
    intro hfield hvalue
    obtain ⟨hlower, hset, hblank⟩ := fixed field hfield value hvalue
    exact ⟨hlower, hset, Or.inr hblank⟩
  cases field with
  | project =>
    obtain ⟨name, -, rfl⟩ := List.mem_map.1 h
    exact ⟨Text.lower_lower name, by simp [setting], Or.inl rfl⟩
  | priority => exact hother (by simp) h
  | status => exact hother (by simp) h
  | due => exact hother (by simp) h

/-- The token that was started for a field is completed by a value. -/
theorem applyOption_apply (input value : Text) (field : FilterField) (names : List Text) :
    applyOption (apply .search input field.name names).text field.name value =
      Text.replaceLastToken input (field.opening ++ value) ++ " ".toText := by
  have hspace : .char ' ' ∉ field.opening := by cases field <;> decide
  simp only [apply, FilterField.ofName?_name]
  rw [applyOption, Text.replaceLastToken_replaceLastToken input hspace]
  rfl

/-- A chosen value without blanks is what its field is set to. -/
theorem parse_option {names : List Text} (h : value ∈ options names field)
    (hblank : ∀ c ∈ value, isBlank c = false) :
    parse (applyOption (apply .search input field.name names).text field.name value) =
      (parse (Text.withoutLastToken input)).withField value field := by
  obtain ⟨hlower, hset, -⟩ := mem_options_cases h
  rw [applyOption_apply, parse_replaceLastToken, map_ofWord_field field hblank hlower]
  exact ofTokens_append_setting _ hset

/-- **What a search offers is what it then looks for**, just where the name of the tag and
    the value of the field hold no blank, and the tag has a name. -/
theorem parse_chosen (input : Text) (tags names : List Text) :
    (∀ name ∈ tags, marked name ∈ suggest .search input tags →
      (parse (apply .search input (marked name) names).text =
          (parse (Text.withoutLastToken input)).withTag (Text.lower name) ↔
        name ≠ [] ∧ ∀ c ∈ name, isBlank c = false)) ∧
    ∀ field, ∀ value ∈ options names field,
      (parse (applyOption (apply .search input field.name names).text field.name value) =
          (parse (Text.withoutLastToken input)).withField value field ↔
        ∀ c ∈ value, isBlank c = false) := by
  constructor
  · intro name _ _
    refine ⟨fun h => ?_, fun h => parse_marked h.1 h.2 names⟩
    have hmem : Text.lower name ∈
        (parse (apply .search input (marked name) names).text).tags := by
      rw [h, withTag]
      exact List.mem_append_right _ (List.mem_singleton_self _)
    obtain ⟨hne, hblank, -⟩ := (isCanonical_parse _).tags _ hmem
    exact ⟨fun hnil => hne (Text.lower_eq_nil.2 hnil), Text.forall_not_isBlank_lower.1 hblank⟩
  · intro field value hvalue
    refine ⟨fun h => ?_, parse_option hvalue⟩
    obtain ⟨-, -, rfl | hblank⟩ := mem_options_cases hvalue
    · have hproject : value ∈
          (parse (applyOption (apply .search input FilterField.project.name names).text
            FilterField.project.name value)).project := by
        rw [h]
        rfl
      exact ((isCanonical_parse _).project value hproject).1
    · exact hblank

theorem parse_chosen_errands :
    "Errands".toText ∈ ["Errands".toText] ∧
      marked "Errands".toText ∈ suggest .search "buy #err".toText ["Errands".toText] ∧
      "home".toText ∈ options ["Home".toText] .project ∧
      parse (apply .search "buy #err".toText (marked "Errands".toText) ["Home".toText]).text =
        (parse "buy".toText).withTag "errands".toText ∧
      parse (applyOption (apply .search "buy #err".toText "project".toText ["Home".toText]).text
          "project".toText "home".toText) =
        (parse "buy".toText).withField "home".toText .project := by
  have hall := parse_chosen "buy #err".toText ["Errands".toText] ["Home".toText]
  have hoffer : marked "Errands".toText ∈ suggest .search "buy #err".toText ["Errands".toText] := by
    decide +kernel
  have hoption : "home".toText ∈ options ["Home".toText] .project := by decide +kernel
  exact ⟨by simp, hoffer, hoption, (hall.1 _ (by simp) hoffer).2 (by decide),
    (hall.2 .project _ hoption).2 (by decide)⟩

/-- A tag and a project whose names are two words each are looked for by the first one. -/
theorem parse_chosen_two_words :
    marked "big house".toText ∈ suggest .search "#big".toText ["big house".toText] ∧
      (apply .search "#big".toText (marked "big house".toText) []).text = "#big house ".toText ∧
      parse "#big house ".toText = { text := "house".toText, tags := ["big".toText] } ∧
      parse "#big house ".toText ≠
        (parse (Text.withoutLastToken "#big".toText)).withTag (Text.lower "big house".toText) ∧
      "side gig".toText ∈ options ["Side Gig".toText] .project ∧
      applyOption (apply .search "pro".toText "project".toText ["Side Gig".toText]).text
        "project".toText "side gig".toText = "project:side gig ".toText ∧
      parse "project:side gig ".toText = { text := "gig".toText, project := some "side".toText } ∧
      parse "project:side gig ".toText ≠
        (parse (Text.withoutLastToken "pro".toText)).withField "side gig".toText .project := by
  decide +kernel

end Completion
end TaskDesk
