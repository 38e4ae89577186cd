import TaskDesk.Proofs.Service.Calls
import TaskDesk.Proofs.Store.Record

/-!
# What the members of a body ask for

A change to a task is read from the members of its body. A member asks for a value, and a field
without a member keeps the one that it has. Lists of texts are asked for by lists: null asks for
nothing. A description that is null reads as an empty one.

Results:
* `Body.follows_edit`, `Body.follows_edit_needed`: a column after a change.
* `Body.Reads.gives_tags`, `Body.Reads.gives_subtasks`: the lists of texts that are asked for.
-/

namespace TaskDesk

namespace Checked

variable {α : Type}

theorem all_eq_ok {checks : List (Checked α)} {xs : List α} :
    all checks = ok xs ↔ checks = xs.map ok := by
  induction checks generalizing xs with
  | nil => cases xs <;> simp [all]
  | cons check more ih =>
    rw [all, seq_eq_ok]
    constructor
    · rintro ⟨g, as, hg, has, rfl⟩
      obtain ⟨a, rfl, rfl⟩ := map_eq_ok.1 hg
      rw [ih.1 has, List.map_cons]
    · intro h
      obtain ⟨a, as, rfl, rfl, has⟩ := List.map_eq_cons_iff.1 h.symm
      exact ⟨_, as, map_eq_ok.2 ⟨a, rfl, rfl⟩, ih.2 has.symm, rfl⟩

end Checked

namespace Check

theorem text_eq_ok {j : Json} {t : Text} (h : text j = .ok t) : j = .text t := by
  cases j with
  | text t =>
    cases h
    rfl
  | _ => cases h

/-- A list of texts that is accepted. -/
theorem list_text_eq_ok {j : Json} {ts : List Text} (h : list text j = .ok ts) :
    j = .ofTexts ts := by
  cases j with
  | list items =>
    have hitems := Checked.all_eq_ok.1 h
    have hlength : items.length = ts.length := by simpa using congrArg List.length hitems
    refine congrArg Json.list (List.ext_getElem (by simpa using hlength) fun i hi hi' => ?_)
    rw [List.length_map] at hi'
    have hitem : ((text items[i]).under (.item i)) = .ok ts[i] := by
      have hplace := congrArg (·[i]?) hitems
      simpa [hi, hi'] using hplace
    rw [text_eq_ok (Checked.under_eq_ok.1 hitem), List.getElem_map]
  | _ => cases h

end Check

namespace Body

variable {α β : Type} {m : List (Text × Json)} {name : String}

/-- A value after a change is the one that the member asks for, or the one from before where
    there is no member. -/
def Follows (m : List (Text × Json)) (name : String) (check : Check α) (old new : α) : Prop :=
  match Json.memberOf? m name.toText with
  | some j => check j = .ok new
  | none => new = old

/-- A list of texts that a member asks for, if there is one that is not null. -/
def Gives (m : List (Text × Json)) (name : String) : Option (List Text) → Prop
  | some texts => Json.memberOf? m name.toText = some (.ofTexts texts)
  | none => Json.memberOf? m name.toText = none ∨ Json.memberOf? m name.toText = some .null

/-- What is made of the value that is asked for, and of the one from before. -/
theorem Follows.map {check : Check α} {old new : α} (h : Follows m name check old new)
    (f : α → β) : Follows m name (fun j => f <$> check j) (f old) (f new) := by
  unfold Follows at h ⊢
  split at h
  · exact Checked.map_eq_ok.2 ⟨new, h, rfl⟩
  · exact congrArg f h

/-- What the value that is asked for is made of. -/
theorem Follows.of_map {check : Check α} {f : α → β} {old new : β} {old' new' : α}
    (h : Follows m name (fun j => f <$> check j) old new) (hkept : new = old → new' = old')
    (hgiven : ∀ x, f x = new → x = new') : Follows m name check old' new' := by
  unfold Follows at h ⊢
  split at h
  · obtain ⟨x, hx, hnew⟩ := Checked.map_eq_ok.1 h
    rw [hx, hgiven x hnew]
  · exact hkept h

/-- A column that may be cleared. -/
theorem follows_edit {check : Check α} {e : Edit α} (h : edit m name check = .ok e)
    (old : Option α) : Follows m name (Check.nullable check) old (e.apply old) := by
  obtain ⟨given, hgiven, rfl⟩ := Checked.map_eq_ok.1 h
  unfold Field.given at hgiven
  split at hgiven
  · rename_i j hj
    obtain ⟨value, hvalue, rfl⟩ := Checked.map_eq_ok.1 hgiven
    rw [Follows, hj]
    dsimp only
    rw [Checked.under_eq_ok.1 hvalue]
    cases value <;> rfl
  · rename_i habsent
    cases hgiven
    rw [Follows, habsent]
    rfl

/-- A column that needs a value, and is not cleared. -/
theorem follows_edit_needed {check : Check α} {e : Edit α} (h : edit m name check = .ok e)
    (hne : e ≠ .clear) (old : α) : Follows m name check old (e.applyTo old) := by
  have hfollows := follows_edit h (some old)
  rw [Edit.apply_some_eq.2 ⟨hne, rfl⟩] at hfollows
  unfold Follows at hfollows ⊢
  split at hfollows
  · exact Check.nullable_eq_some hfollows
  · exact Option.some.inj hfollows

/-- A list of texts that is asked for. -/
theorem gives_of_withDefault {texts : Option (List Text)}
    (h : Field.withDefault name none (Check.nullable (Check.list Check.text)) m = .ok texts) :
    Gives m name texts := by
  obtain ⟨given, hgiven, rfl⟩ := Checked.map_eq_ok.1 h
  unfold Field.given at hgiven
  split at hgiven
  · rename_i j hj
    obtain ⟨value, hvalue, rfl⟩ := Checked.map_eq_ok.1 hgiven
    have hread := Checked.under_eq_ok.1 hvalue
    cases value with
    | some texts =>
      rw [Check.list_text_eq_ok (Check.nullable_eq_some hread)] at hj
      exact hj
    | none =>
      refine .inr (hj.trans (congrArg some ?_))
      unfold Check.nullable at hread
      split at hread
      · rfl
      · obtain ⟨_, _, hnone⟩ := Checked.map_eq_ok.1 hread
        cases hnone
  · rename_i habsent
    cases hgiven
    exact .inl habsent

/-- The tags of a change are those that the body gives. -/
theorem Reads.gives_tags {c : TaskChange} (h : Reads m c) : Gives m "tags" c.newTags := by
  obtain ⟨texts, htexts, htags⟩ := h.tags
  rw [TaskChange.newTags, htags, map_reduceOption_map_some]
  exact gives_of_withDefault htexts

/-- The subtasks of a change are those that the body gives. -/
theorem Reads.gives_subtasks {c : TaskChange} (h : Reads m c) :
    Gives m "subtasks" c.newSubtasks := by
  obtain ⟨texts, htexts, hsubtasks⟩ := h.subtasks
  rw [TaskChange.newSubtasks, hsubtasks, map_reduceOption_map_some]
  exact gives_of_withDefault htexts

end Body
end TaskDesk
