import TaskDesk.Form.Records

/-!
# Records that can be sent

A record can be part of a reply if all of its texts can be written in UTF-8: the
names of its members are plain, and its other values can always be written.

Results:
* `Json.isSendable_record`: an object can be sent if its values can.
* `Task.isSendable_toJson`, `Subtask.isSendable_toJson`, `Project.isSendable_toJson`,
  `Folder.isSendable_toJson`: records can be sent if their texts can be encoded.
-/

namespace TaskDesk

namespace Json

theorem isSendable_null : null.isSendable = true := by simp [isSendable]

theorem isSendable_bool (b : Bool) : (bool b).isSendable = true := by simp [isSendable]

theorem isSendable_int (n : Int) : (int n).isSendable = true := by simp [isSendable]

theorem isSendable_ofInt? (n : Option Int) : (ofInt? n).isSendable = true := by
  cases n with
  | none => exact isSendable_null
  | some n => exact isSendable_int n

theorem isSendable_of_ofText? {t : Option Text} (h : (ofText? t).isSendable = true) :
    ∀ u ∈ t, u.isEncodable = true := by
  rintro u rfl
  exact (isSendable_text u).symm.trans h

theorem isSendable_ofText? {t : Option Text} (h : ∀ u ∈ t, u.isEncodable = true) :
    (ofText? t).isSendable = true := by
  cases t with
  | none => exact isSendable_null
  | some u => exact (isSendable_text u).trans (h u rfl)

theorem isSendable_listOf {α : Type} {toJson : α → Json} {xs : List α}
    (h : ∀ x ∈ xs, (toJson x).isSendable = true) : (list (xs.map toJson)).isSendable = true := by
  rw [isSendable_list, List.all_map, List.all_eq_true]
  exact h

theorem isSendable_ofTexts {ts : List Text} (h : ∀ t ∈ ts, t.isEncodable = true) :
    (ofTexts ts).isSendable = true :=
  isSendable_listOf fun t ht => (isSendable_text t).trans (h t ht)

/-- The names of members are strings, so only their values matter. -/
theorem isSendable_record {members : List (String × Json)}
    (h : ∀ m ∈ members, m.2.isSendable = true) : (record members).isSendable = true := by
  simp only [record, isSendable, List.all_eq_true, List.mem_attach, forall_const, Subtype.forall,
    List.mem_map, Bool.or_eq_true, Bool.and_eq_true]
  rintro _ ⟨m, hm, rfl⟩
  exact .inr ⟨Text.isEncodable_toText m.1, h m hm⟩

/-- A member is left out only if its name has the inner mark. -/
theorem isSendable_of_record {members : List (String × Json)} {value : Json}
    (hsent : (record members).isSendable = true) (name : String) (hm : (name, value) ∈ members)
    (hname : innerMark.isPrefixOf name.toText = false) : value.isSendable = true := by
  simp only [record, isSendable, List.all_eq_true, List.mem_attach, forall_const, Subtype.forall,
    List.mem_map, Bool.or_eq_true, Bool.and_eq_true] at hsent
  rcases hsent _ ⟨(name, value), hm, rfl⟩ with hmark | ⟨-, hvalue⟩
  · exact absurd hmark (by simp [hname])
  · exact hvalue

end Json

open Json

/-! ## Texts of records -/

/-- The texts of a subtask. -/
def Subtask.texts (s : Subtask) : List Text := [s.id, s.text]

/-- The texts of a task, with those of its tags and subtasks. -/
def Task.texts (t : Task) : List Text :=
  [t.id, t.title, t.description, t.createdAt, t.updatedAt] ++ t.dueDate.toList ++ t.tags ++
    t.subtasks.flatMap (·.texts)

/-- The texts of a project. -/
def Project.texts (p : Project) : List Text := [p.name, p.color] ++ p.description.toList

/-- The texts of a folder. -/
def Folder.texts (f : Folder) : List Text := [f.name, f.color] ++ f.description.toList

/-! ## Records as JSON -/

theorem Subtask.isSendable_toJson {s : Subtask} (h : ∀ t ∈ s.texts, t.isEncodable = true) :
    s.toJson.isSendable = true := by
  simp only [texts, List.forall_mem_cons] at h
  obtain ⟨hid, htext, -⟩ := h
  apply isSendable_record
  simp [isSendable_text, isSendable_bool, hid, htext]

theorem Task.isSendable_toJson {t : Task} (h : ∀ u ∈ t.texts, u.isEncodable = true) :
    t.toJson.isSendable = true := by
  simp only [texts, List.forall_mem_append, List.forall_mem_cons] at h
  obtain ⟨⟨⟨⟨hid, htitle, hdescription, hcreated, hupdated, -⟩, hdue⟩, htags⟩, hsubtasks⟩ := h
  have hparts : ∀ s ∈ t.subtasks, s.toJson.isSendable = true := fun s hs =>
    s.isSendable_toJson fun u hu => hsubtasks u (List.mem_flatMap.2 ⟨s, hs, hu⟩)
  have hpriority : t.priority.name.isEncodable = true := by cases t.priority <;> decide
  have hdue' : ∀ u ∈ t.dueDate, u.isEncodable = true := fun u hu => hdue u (by simpa using hu)
  apply isSendable_record
  simp [isSendable_text, isSendable_bool, isSendable_ofInt?, isSendable_ofText? hdue',
    isSendable_ofTexts htags, isSendable_listOf hparts, hid, htitle, hdescription, hcreated,
    hupdated, hpriority]

theorem Project.isSendable_toJson {p : Project} (h : ∀ t ∈ p.texts, t.isEncodable = true) :
    p.toJson.isSendable = true := by
  simp only [texts, List.forall_mem_append, List.forall_mem_cons] at h
  obtain ⟨⟨hname, hcolor, -⟩, hdescription⟩ := h
  have hdescription' : ∀ t ∈ p.description, t.isEncodable = true := fun t ht =>
    hdescription t (by simpa using ht)
  apply isSendable_record
  simp [isSendable_text, isSendable_int, isSendable_ofInt?, isSendable_ofText? hdescription', hname,
    hcolor]

theorem Folder.isSendable_toJson {f : Folder} (h : ∀ t ∈ f.texts, t.isEncodable = true) :
    f.toJson.isSendable = true := by
  simp only [texts, List.forall_mem_append, List.forall_mem_cons] at h
  obtain ⟨⟨hname, hcolor, -⟩, hdescription⟩ := h
  have hdescription' : ∀ t ∈ f.description, t.isEncodable = true := fun t ht =>
    hdescription t (by simpa using ht)
  apply isSendable_record
  simp [isSendable_text, isSendable_int, isSendable_ofText? hdescription', hname, hcolor]

end TaskDesk
