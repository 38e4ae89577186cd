import TaskDesk.Proofs.Filter.Criteria
import TaskDesk.Proofs.Text.Sigma

/-!
# Free text that stands in a task

Free text is looked for without regard to case: its lower case has to occur in the lower
case of the title or of the description. Text that stands there as it is written is found,
but for one kind of it: a capital sigma at its edge can take another small form in the task
than in the text alone. Whole words never do.

Results:
* `meets_text_iff`: what filters ask for that set nothing but a text.
* `meets_text_between_blanks`: whole words of a title or description are found.
* `meets_text_of_verbatim`: text that stands in a task is found where no sigma changes its form,
  and it is found in all tasks in which it stands just if it has no loose sigma.
-/

namespace TaskDesk
namespace Filters

/-- Filters that set nothing but a text ask for its lower case in the title or description. -/
theorem meets_text_iff (today : Date) (projects : List Project) {u : Text} {t : Task} :
    ({ text := u } : Filters).meets today projects t = true ↔
      Text.lower u <:+: Text.lower t.title ∨ Text.lower u <:+: Text.lower t.description := by
  have honly : ({ text := u } : Filters).meets today projects t =
      ({ text := u } : Filters).textMeets t := by
    simp [meets, tagsMeet, priorityMeets, projectMeets, statusMeets, dueMeets]
  rw [honly, textMeets, Bool.or_assoc, Bool.or_eq_true, Bool.or_eq_true, Text.contains_iff,
    Text.contains_iff, List.isEmpty_iff]
  refine or_iff_right_of_imp fun hempty => Or.inl ?_
  rw [hempty]
  exact List.nil_infix

/-- A text stands in the title or in the description of a task, between two others. -/
def StandsBetween (before u behind : Text) (t : Task) : Prop :=
  t.title = before ++ u ++ behind ∨ t.description = before ++ u ++ behind

/-- Text is found where no sigma changes its form. -/
theorem meets_text_of_standsBetween {before u behind : Text} {t : Task}
    (hplace : StandsBetween before u behind t) (h : ¬ Text.ChangesSigma before u behind)
    (today : Date) (projects : List Project) :
    ({ text := u } : Filters).meets today projects t = true := by
  rw [meets_text_iff]
  rcases hplace with htitle | hdescription
  · rw [htitle]
    exact Or.inl (Text.lower_infix h)
  · rw [hdescription]
    exact Or.inr (Text.lower_infix h)

/-- Whole words are found. -/
theorem meets_text_between_blanks {before u behind : Text} {t : Task}
    (hplace : StandsBetween before u behind t) (hbefore : before.getLast?.all isBlank = true)
    (hbehind : behind.head?.all isBlank = true) (today : Date) (projects : List Project) :
    ({ text := u } : Filters).meets today projects t = true :=
  meets_text_of_standsBetween hplace (Text.not_changesSigma_between_blanks hbefore hbehind u) today
    projects

/-- **Text that stands in a task** is found where no sigma changes its form. It is found in all
    tasks in whose title or description it stands just if it has no loose sigma. -/
theorem meets_text_of_verbatim (u : Text) :
    (∀ before behind t, StandsBetween before u behind t → ¬ Text.ChangesSigma before u behind →
      ∀ today projects, ({ text := u } : Filters).meets today projects t = true) ∧
    ((∀ t : Task, u <:+: t.title ∨ u <:+: t.description →
      ∀ today projects, ({ text := u } : Filters).meets today projects t = true) ↔
        ¬ Text.HasLooseSigma u) := by
  refine ⟨fun before behind t => meets_text_of_standsBetween, fun hfound hloose => ?_,
    fun hloose t hstands => ?_⟩
  · obtain ⟨before, behind, hhidden⟩ := hloose.exists_hidden
    let t : Task := { id := [], title := before ++ u ++ behind, createdAt := [], updatedAt := [] }
    have hmeets := hfound t (Or.inl ⟨before, behind, rfl⟩) { year := 2025, month := 1, day := 1 } []
    rcases (meets_text_iff _ _).1 hmeets with htitle | hdescription
    · exact hhidden htitle
    · have hempty : Text.lower u = [] := List.infix_nil.1 hdescription
      rw [hempty] at hhidden
      exact hhidden List.nil_infix
  · have hplace : ∃ before behind, StandsBetween before u behind t := by
      rcases hstands with ⟨before, behind, htitle⟩ | ⟨before, behind, hdescription⟩
      · exact ⟨before, behind, Or.inl htitle.symm⟩
      · exact ⟨before, behind, Or.inr hdescription.symm⟩
    obtain ⟨before, behind, hplace⟩ := hplace
    exact meets_text_of_standsBetween hplace fun hchanges => hloose hchanges.hasLooseSigma

/-- A whole Greek word is found although it ends with a sigma, and so is a piece of a text without
    sigmas that ends within a word. -/
theorem meets_text_of_verbatim_road :
    let t : Task :=
      { id := "road".toText, title := "Η ΟΔΟΣ ΜΟΥ".toText, description := "Wash the CAR.".toText,
        createdAt := [], updatedAt := [] }
    let today : Date := { year := 2025, month := 1, day := 15 }
    StandsBetween "Η ".toText "ΟΔΟΣ".toText " ΜΟΥ".toText t ∧
      ¬ Text.ChangesSigma "Η ".toText "ΟΔΟΣ".toText " ΜΟΥ".toText ∧
      ({ text := "ΟΔΟΣ".toText } : Filters).meets today [] t = true ∧
      ¬ Text.HasLooseSigma "the C".toText ∧ "the C".toText <:+: t.description ∧
      ({ text := "the C".toText } : Filters).meets today [] t = true := by
  intro t today
  have hplace : StandsBetween "Η ".toText "ΟΔΟΣ".toText " ΜΟΥ".toText t := Or.inl rfl
  have hform : ¬ Text.ChangesSigma "Η ".toText "ΟΔΟΣ".toText " ΜΟΥ".toText :=
    Text.not_changesSigma_between_blanks (by decide) (by decide) _
  have hloose : ¬ Text.HasLooseSigma "the C".toText := Text.not_hasLooseSigma_of_not_mem (by decide)
  have hpiece : "the C".toText <:+: t.description := (Text.contains_iff _ _).1 (by decide)
  exact ⟨hplace, hform, (meets_text_of_verbatim _).1 _ _ t hplace hform today [], hloose, hpiece,
    (meets_text_of_verbatim _).2.2 hloose t (Or.inr hpiece) today []⟩

/-- The first half of a word ends with a sigma that is no final one in the whole word. -/
theorem not_meets_text_half_word :
    "ΚΟΣ".toText <:+: "ΚΟΣΜΟΣ".toText ∧
      ({ text := "ΚΟΣ".toText } : Filters).meets { year := 2025, month := 1, day := 15 } []
        { id := "t1".toText, title := "ΚΟΣΜΟΣ".toText, createdAt := [], updatedAt := [] } = false := by
  refine ⟨(Text.contains_iff _ _).1 ?_, ?_⟩ <;> decide +kernel

end Filters
end TaskDesk
