import TaskDesk.Proofs.Draft.Sendable
import TaskDesk.Proofs.Service.Careful
import TaskDesk.Proofs.Text.Lower

/-!
# Texts that are sent back

Some replies hold parts of what was sent: the title of a reading, the texts of filters, and an
input line after a completion. Such a reply can be sent just if these parts can be encoded, since
all else in it was written by the service or read from the store. Completions on offer come from
the tables and from the tags and projects that are stored, and never from the input.

Results:
* `Contents.isSendable_reading`, `Contents.isSendable_filters`, `Contents.isSendable_applied`,
  `Contents.isSendable_line`: when parts of what was sent can be sent back.
* `Completion.isEncodable_suggest`, `Completion.isEncodable_options`: what is offered can be.
-/

namespace TaskDesk

/-! ## What is offered -/

namespace Completion

/-- The values of a field are names of its options, or projects in lower case. -/
theorem isEncodable_options {names : List Text} (hnames : ∀ name ∈ names, name.isEncodable = true)
    (field : FilterField) : ∀ t ∈ options names field, t.isEncodable = true := by
  have hfixed : ∀ field : FilterField, ∀ t ∈ options [] field, t.isEncodable = true := by
    intro field
    cases field <;> decide
  cases field with
  | project => exact List.forall_mem_map.2 fun name hname => Text.isEncodable_lower (hnames name hname)
  | priority => exact hfixed .priority
  | status => exact hfixed .status
  | due => exact hfixed .due

theorem isEncodable_optionsFor {names : List Text}
    (hnames : ∀ name ∈ names, name.isEncodable = true) (name : Text) :
    ∀ t ∈ optionsFor name names, t.isEncodable = true := by
  unfold optionsFor
  cases FilterField.ofName? name with
  | none => exact List.forall_mem_nil _
  | some field => exact isEncodable_options hnames field

theorem isEncodable_marked {tags : List Text} (htags : ∀ t ∈ tags, t.isEncodable = true) :
    ∀ t ∈ tags.map marked, t.isEncodable = true :=
  List.forall_mem_map.2 fun tag htag => htags tag htag

theorem isEncodable_forSearch {tags : List Text} (htags : ∀ t ∈ tags, t.isEncodable = true)
    (token : Text) : ∀ t ∈ forSearch token tags, t.isEncodable = true := by
  have hnames : ∀ t ∈ FilterField.all.map (·.name), t.isEncodable = true := by decide
  refine List.forall_mem_append.2 ⟨fun t ht => hnames t (List.mem_filter.1 ht).1, ?_⟩
  split
  · exact isEncodable_marked fun t ht => htags t (List.mem_filter.1 ht).1
  · exact isEncodable_marked fun t ht => htags t (List.mem_filter.1 ht).1

theorem isEncodable_fromLength {least : Nat} {token : Text} {ts : List Text}
    (h : ∀ t ∈ ts, t.isEncodable = true) : ∀ t ∈ fromLength least token ts, t.isEncodable = true := by
  unfold fromLength
  split
  · exact h
  · exact List.forall_mem_nil _

/-- All that is offered for a new task stands in the tables. -/
theorem isEncodable_forCreate (input token : Text) :
    ∀ t ∈ forCreate input token, t.isEncodable = true := by
  have hkeywords (c : Category) : ∀ t ∈ c.keywords, t.isEncodable = true := by cases c <;> decide
  have htags : ∀ t ∈ commonTags, t.isEncodable = true := by decide
  have hprojects : ∀ t ∈ projectKeywords, t.isEncodable = true := by decide
  have hhints : ∀ entry ∈ contexts, ∀ t ∈ entry.2, t.isEncodable = true := by decide
  simp only [forCreate, List.forall_mem_append]
  refine ⟨⟨⟨⟨⟨isEncodable_fromLength fun t ht => hkeywords _ t (List.mem_filter.1 ht).1,
    isEncodable_fromLength fun t ht => hkeywords _ t (List.mem_filter.1 ht).1⟩,
    isEncodable_fromLength fun t ht => hkeywords _ t (List.mem_filter.1 ht).1⟩, ?_⟩,
    isEncodable_fromLength fun t ht => hprojects t (List.mem_filter.1 ht).1⟩, fun t ht => ?_⟩
  · split
    · exact isEncodable_marked fun t ht => htags t (List.mem_filter.1 ht).1
    · exact isEncodable_fromLength (isEncodable_marked fun t ht => htags t (List.mem_filter.1 ht).1)
  · obtain ⟨⟨triggers, offers⟩, hentry, ht⟩ := List.mem_flatMap.1 ht
    dsimp only at ht
    split at ht
    · exact hhints _ hentry t ht
    · cases ht

/-- **Completions on offer** can be encoded if the tags in use can. -/
theorem isEncodable_suggest {tags : List Text} (htags : ∀ t ∈ tags, t.isEncodable = true)
    (mode : Mode) (input : Text) : ∀ t ∈ suggest mode input tags, t.isEncodable = true := by
  unfold suggest
  dsimp only
  split
  · exact List.forall_mem_nil _
  · intro t ht
    have ht := (Text.mem_distinct t _).1 (List.mem_of_mem_take ht)
    cases mode with
    | search => exact isEncodable_forSearch htags _ t ht
    | create => exact isEncodable_forCreate input _ t ht

end Completion

/-! ## What is sent back -/

namespace Contents

theorem isSendable_texts {ts : List Text} (h : ∀ t ∈ ts, t.isEncodable = true) :
    (texts ts).isSendable = true := Json.isSendable_ofTexts h

/-- **A reading can be sent** just if its title can be encoded. -/
theorem isSendable_reading {today : Date} {t : Text} {r : Reading} (h : Reading.ofText today t = .ok r) :
    (reading r).isSendable = true ↔ r.draft.title.isEncodable = true := by
  refine ⟨fun hsent => ?_, Reading.isSendable_of_ofText h⟩
  have hdraft : r.draft.toJson.isSendable = true :=
    Json.isSendable_of_record hsent "draft" (by simp) (by decide)
  have htitle : (Json.text r.draft.title).isSendable = true :=
    Json.isSendable_of_record hdraft "clean_title" (by simp) (by decide)
  rwa [Json.isSendable_text] at htitle

end Contents

/-- The texts that filters look for. -/
def Filters.texts (f : Filters) : List Text := f.text :: f.tags ++ f.project.toList

namespace Contents

/-- **Filters can be sent** just if their texts can be encoded. -/
theorem isSendable_filters {f : Filters} :
    (filters f).isSendable = true ↔ ∀ t ∈ f.texts, t.isEncodable = true := by
  simp only [Filters.texts, List.cons_append, List.forall_mem_cons, List.forall_mem_append,
    Option.mem_toList]
  constructor
  · intro hsent
    have htext : (Json.text f.text).isSendable = true :=
      Json.isSendable_of_record hsent "text" (by simp) (by decide)
    have htags : (Json.ofTexts f.tags).isSendable = true :=
      Json.isSendable_of_record hsent "tags" (by simp) (by decide)
    have hproject : (Json.ofText? f.project).isSendable = true :=
      Json.isSendable_of_record hsent "project_name" (by simp) (by decide)
    rw [Json.isSendable_text] at htext
    rw [Json.ofTexts, Json.isSendable_list, List.all_map, List.all_eq_true] at htags
    refine ⟨htext, fun t ht => ?_, Json.isSendable_of_ofText? hproject⟩
    exact (Json.isSendable_text t).symm.trans (htags t ht)
  · rintro ⟨htext, htags, hproject⟩
    have hpriority : ∀ u ∈ f.priority.map (·.name), u.isEncodable = true := by
      intro u hu
      obtain ⟨p, -, rfl⟩ := Option.map_eq_some_iff.1 hu
      exact p.isEncodable_name
    have hstatus : ∀ u ∈ f.status.map (·.name), u.isEncodable = true := by
      intro u hu
      obtain ⟨status, -, rfl⟩ := Option.map_eq_some_iff.1 hu
      cases status <;> decide
    have hdue : ∀ u ∈ f.due.map (·.name), u.isEncodable = true := by
      intro u hu
      obtain ⟨bucket, -, rfl⟩ := Option.map_eq_some_iff.1 hu
      cases bucket <;> decide
    apply Json.isSendable_record
    simp [Json.isSendable_text, Json.isSendable_ofTexts htags, Json.isSendable_ofText? hpriority,
      Json.isSendable_ofText? hproject, Json.isSendable_ofText? hstatus,
      Json.isSendable_ofText? hdue, htext]

/-- **An input line after a completion can be sent** just if the line can be encoded. -/
theorem isSendable_applied {names : List Text} (hnames : ∀ name ∈ names, name.isEncodable = true)
    (mode : Mode) (input chosen : Text) :
    (applied (Completion.apply mode input chosen names)).isSendable = true ↔
      (Completion.apply mode input chosen names).text.isEncodable = true := by
  have hoptions : ∀ t ∈ (Completion.apply mode input chosen names).options,
      t.isEncodable = true := by
    unfold Completion.apply
    cases mode with
    | search =>
      dsimp only
      split
      · exact Completion.isEncodable_options hnames _
      · exact List.forall_mem_nil _
    | create =>
      dsimp only
      split <;> exact List.forall_mem_nil _
  generalize Completion.apply mode input chosen names = a at hoptions ⊢
  constructor
  · intro hsent
    have htext : (Json.text a.text).isSendable = true :=
      Json.isSendable_of_record hsent "text" (by simp) (by decide)
    rwa [Json.isSendable_text] at htext
  · intro htext
    have hpending : ∀ u ∈ a.pending.map (·.name), u.isEncodable = true := by
      intro u hu
      obtain ⟨field, -, rfl⟩ := Option.map_eq_some_iff.1 hu
      cases field <;> decide
    apply Json.isSendable_record
    simp [Json.isSendable_text, Json.isSendable_ofText? hpending, Json.isSendable_ofTexts hoptions,
      htext]

theorem isSendable_line {t : Text} : (line t).isSendable = true ↔ t.isEncodable = true := by
  constructor
  · intro hsent
    have htext : (Json.text t).isSendable = true :=
      Json.isSendable_of_record hsent "text" (by simp) (by decide)
    rwa [Json.isSendable_text] at htext
  · intro ht
    exact Json.isSendable_record (by simp [Json.isSendable_text, ht])

end Contents
end TaskDesk
