import Mathlib.Data.List.Nodup
import TaskDesk.Proofs.Store.Integrity

/-!
# Numbers of projects and folders

The store numbers its projects and its folders, each on their own. A number is one more
than the last one that was given, and the last one is remembered even if its record is
gone. So from one store to the next records get the numbers that follow, and others only
go. Apart from the folder it lies in, a numbered record never changes.

Results:
* `Step.numbers`: what a statement does to the numbered records.
* `Step.isNumbered`, `Move.isNumbered`: numbers stand in order, and none is above the last
  one that was given.
* `exists_label_of_reference`: in a sound store references lead to numbered records.
* `Numbers.keeps_reference`: new numbers do not change what a reference leads to.
-/

namespace TaskDesk

/-- The records that the store numbers. -/
inductive Numbered where
  | projects | folders
deriving DecidableEq, Repr

/-- What a numbered record says by itself. The folder of a project is left out. -/
structure Label where
  id : Int
  name : Text
  color : Text
  description : Option Text
deriving DecidableEq, Repr

/-- The texts of a numbered record. -/
def Label.texts (x : Label) : List Text := [x.name, x.color] ++ x.description.toList

/-- A project by itself. -/
def Project.label (p : Project) : Label := ⟨p.id, p.name, p.color, p.description⟩

/-- A folder by itself. -/
def Folder.label (f : Folder) : Label := ⟨f.id, f.name, f.color, f.description⟩

namespace Numbered

/-- The records of a kind. -/
def labels : Numbered → Ledger → List Label
  | projects, l => l.projects.rows.map (·.label)
  | folders, l => l.folders.rows.map (·.label)

/-- The last number that was given to a record of a kind. -/
def last : Numbered → Ledger → Nat
  | projects, l => l.projects.last
  | folders, l => l.folders.last

/-- The references to records of a kind: of tasks to projects, and of projects to
    folders. -/
def references : Numbered → Ledger → List Int
  | projects, l => l.tasks.filterMap (·.projectId)
  | folders, l => l.projects.rows.filterMap (·.folderId)

end Numbered

namespace Store

/-- The stored records of a kind. -/
def labels (k : Numbered) (s : Store) : List Label := s.ledger.elim [] k.labels

/-- The last number that was given to a record of a kind. -/
def last (k : Numbered) (s : Store) : Nat := s.ledger.elim 0 k.last

/-- The stored references to records of a kind. -/
def references (k : Numbered) (s : Store) : List Int := s.ledger.elim [] k.references

/-- From one store to the next the new records get the numbers that follow, and others
    only go. The texts of new records can be written in UTF-8. -/
structure Numbers (k : Numbered) (new : List Label) (s s' : Store) : Prop where
  labels : List.Sublist (s'.labels k) (s.labels k ++ new)
  ids : new.map (·.id) = (List.range' (s.last k + 1) new.length).map fun n : Nat => (n : Int)
  last : s'.last k = s.last k + new.length
  texts : ∀ x ∈ new, ∀ t ∈ x.texts, t.isEncodable = true

/-- Numbers stand in order, and none is above the last one that was given. -/
structure IsNumbered (k : Numbered) (s : Store) : Prop where
  ordered : ((s.labels k).map (·.id)).Pairwise (· < ·)
  bounded : ∀ x ∈ s.labels k, x.id ≤ s.last k

variable {s s' s'' : Store} {k : Numbered} {new more : List Label}

/-! ## New numbers -/

namespace Numbers

theorem refl (s : Store) : Numbers k [] s s := 
  ⟨by rw [List.append_nil], rfl, rfl, List.forall_mem_nil _⟩

theorem trans (h : Numbers k new s s') (h' : Numbers k more s' s'') :
    Numbers k (new ++ more) s s'' where
  labels := by
    rw [← List.append_assoc]
    exact h'.labels.trans (h.labels.append (.refl more))
  ids := by
    rw [List.map_append, h.ids, h'.ids, h.last, List.length_append, ← List.map_append,
      Nat.add_right_comm, List.range'_append_1]
  last := by rw [h'.last, h.last, List.length_append, Nat.add_assoc]
  texts := List.forall_mem_append.2 ⟨h.texts, h'.texts⟩

/-- After that no number is given. -/
theorem rest (h : Numbers k new s s') (h' : Numbers k [] s' s'') : Numbers k new s s'' := by
  have whole := h.trans h'
  rwa [List.append_nil] at whole

/-- What has the same numbered records and gave the same numbers. -/
theorem of_eq (hlabels : s'.labels k = s.labels k) (hlast : s'.last k = s.last k) :
    Numbers k [] s s' :=
  ⟨by rw [hlabels, List.append_nil], rfl, hlast, List.forall_mem_nil _⟩

theorem id_le (h : Numbers k new s s') {x : Label} (hx : x ∈ new) : x.id ≤ s'.last k := by
  have hid := List.mem_map_of_mem (f := (·.id)) hx
  rw [h.ids] at hid
  obtain ⟨n, hn, hn'⟩ := List.mem_map.1 hid
  have hrange := List.mem_range'_1.1 hn
  rw [h.last]
  omega

theorem lt_id (h : Numbers k new s s') {x : Label} (hx : x ∈ new) : s.last k < x.id := by
  have hid := List.mem_map_of_mem (f := (·.id)) hx
  rw [h.ids] at hid
  obtain ⟨n, hn, hn'⟩ := List.mem_map.1 hid
  have hrange := List.mem_range'_1.1 hn
  omega

/-- New numbers increase. -/
theorem increasing (h : Numbers k new s s') : (new.map (·.id)).Pairwise (· < ·) := by
  rw [h.ids]
  exact List.pairwise_map.2 (List.Pairwise.imp Int.ofNat_lt.2 List.pairwise_lt_range')

theorem isNumbered (h : Numbers k new s s') (hs : s.IsNumbered k) : s'.IsNumbered k where
  ordered := by
    refine (List.Pairwise.sublist (h.labels.map _) ?_)
    rw [List.map_append]
    refine List.pairwise_append.2 ⟨hs.ordered, h.increasing, fun i hi j hj => ?_⟩
    obtain ⟨x, hx, rfl⟩ := List.mem_map.1 hi
    obtain ⟨y, hy, rfl⟩ := List.mem_map.1 hj
    exact Int.lt_of_le_of_lt (hs.bounded x hx) (h.lt_id hy)
  bounded x hx := by
    rcases List.mem_append.1 (h.labels.subset hx) with hold | hnew
    · have hbound := hs.bounded x hold
      rw [h.last]
      omega
    · exact h.id_le hnew

end Numbers

theorem IsNumbered.eq_of_id (hs : s.IsNumbered k) {x y : Label} (hx : x ∈ s.labels k)
    (hy : y ∈ s.labels k) (hid : x.id = y.id) : x = y :=
  List.inj_on_of_nodup_map (hs.ordered.imp Int.ne_of_lt) hx hy hid

/-! ## Statements -/

theorem numbers_of_ledger {l l' : Ledger} (hl : s.ledger = some l) (hl' : s'.ledger = some l')
    (hprojects : l'.projects = l.projects) (hfolders : l'.folders = l.folders) :
    Numbers k [] s s' := by
  refine .of_eq ?_ ?_
  · rw [labels, labels, hl, hl']
    cases k <;> simp [Numbered.labels, hprojects, hfolders]
  · rw [last, last, hl, hl']
    cases k <;> simp [Numbered.last, hprojects, hfolders]

theorem numbers_of_eq (h : s'.ledger = s.ledger) : Numbers k [] s s' :=
  .of_eq (by rw [labels, labels, h]) (by rw [last, last, h])

theorem numbers_insertTask {row : NewTaskRow} {now : Text} (h : s.insertTask row now = .ok s') :
    Numbers k [] s s' := by
  obtain ⟨l, hl, -, _, -, _, -, -, -, -, rfl⟩ := insertTask_eq_ok.1 h
  exact numbers_of_ledger hl rfl rfl rfl

theorem numbers_updateTask {edit : TaskEdit} {now : Text} {row : TaskRow}
    (h : s.updateTask edit now row = .ok s') : Numbers k [] s s' := by
  obtain ⟨l, hl, _, -, -, -, rfl⟩ := updateTask_eq_ok.1 h
  exact numbers_of_ledger hl rfl rfl rfl

theorem numbers_deleteTask {id : Option Text} {found : Bool}
    (h : s.deleteTask id = .ok (found, s')) : Numbers k [] s s' := by
  obtain ⟨l, hl, -, -, rfl⟩ := deleteTask_eq_ok.1 h
  exact numbers_of_ledger hl rfl rfl rfl

theorem numbers_deleteTagsOf {taskId : Option Text} (h : s.deleteTagsOf taskId = .ok s') :
    Numbers k [] s s' := by
  obtain ⟨l, hl, -, rfl⟩ := deleteTagsOf_eq_ok.1 h
  exact numbers_of_ledger hl rfl rfl rfl

theorem numbers_insertTag {taskId tag : Option Text} (h : s.insertTag taskId tag = .ok s') :
    Numbers k [] s s' := by
  obtain ⟨l, hl, _, -, _, -, -, -, -, rfl⟩ := insertTag_eq_ok.1 h
  exact numbers_of_ledger hl rfl rfl rfl

theorem numbers_deleteSubtasksOf {taskId : Option Text} (h : s.deleteSubtasksOf taskId = .ok s') :
    Numbers k [] s s' := by
  obtain ⟨_, -, _, rfl⟩ := deleteSubtasksOf_eq_ok.1 h
  exact numbers_of_eq rfl

theorem numbers_insertSubtask {id : Text} {taskId text : Option Text}
    (h : s.insertSubtask id taskId text = .ok s') : Numbers k [] s s' := by
  obtain ⟨_, -, _, -, _, -, -, -, _, -, -, rfl⟩ := insertSubtask_eq_ok.1 h
  exact numbers_of_eq rfl

theorem numbers_markSubtask {id : Option Text} {mark : Int} {found : Bool}
    (h : s.markSubtask id mark = .ok (found, s')) : Numbers k [] s s' := by
  obtain ⟨_, -, -, _, -, rfl⟩ := markSubtask_eq_ok.1 h
  exact numbers_of_eq rfl

theorem numbers_leaveProject {id : Option Int} (h : s.leaveProject id = .ok s') :
    Numbers k [] s s' := by
  obtain ⟨l, hl, -, rfl⟩ := leaveProject_eq_ok.1 h
  exact numbers_of_ledger hl rfl rfl rfl

theorem numbers_saveSetting {key value : Option Text} (h : s.saveSetting key value = .ok s') :
    Numbers k [] s s' := by
  obtain ⟨_, -, _, -, -, h⟩ := saveSetting_eq_ok.1 h
  split at h <;> subst h <;> exact numbers_of_eq rfl

/-- Only the new record gets a number, if it is of the kind. -/
theorem numbers_insertProject {name color description : Option Text} {folderId : Option Int}
    {p : Project} (h : s.insertProject name color description folderId = .ok (p, s')) :
    Numbers k (if k = .projects then [p.label] else []) s s' := by
  obtain ⟨l, hl, -, _, -, _, -, htexts, -, rfl, rfl⟩ := insertProject_eq_ok.1 h
  cases k with
  | projects =>
    refine ⟨?_, ?_, ?_, List.forall_mem_singleton.2 htexts⟩
    · simp [labels, Numbered.labels, hl]
    · simp [last, Numbered.last, hl, Project.label]
    · simp [last, Numbered.last, hl]
  | folders => exact .of_eq (by simp [labels, Numbered.labels, hl]) (by simp [last, Numbered.last, hl])

theorem numbers_insertFolder {name color description : Option Text} {f : Folder}
    (h : s.insertFolder name color description = .ok (f, s')) :
    Numbers k (if k = .folders then [f.label] else []) s s' := by
  obtain ⟨l, hl, _, -, _, -, htexts, rfl, rfl⟩ := insertFolder_eq_ok.1 h
  cases k with
  | folders =>
    refine ⟨?_, ?_, ?_, List.forall_mem_singleton.2 htexts⟩
    · simp [labels, Numbered.labels, hl]
    · simp [last, Numbered.last, hl, Folder.label]
    · simp [last, Numbered.last, hl]
  | projects =>
    exact .of_eq (by simp [labels, Numbered.labels, hl]) (by simp [last, Numbered.last, hl])

theorem numbers_deleteProject {id : Option Int} {found : Bool}
    (h : s.deleteProject id = .ok (found, s')) : Numbers k [] s s' := by
  obtain ⟨l, hl, -, -, -, rfl⟩ := deleteProject_eq_ok.1 h
  cases k with
  | projects =>
    refine ⟨?_, rfl, by simp [last, Numbered.last, hl], List.forall_mem_nil _⟩
    rw [List.append_nil, labels, labels, hl]
    exact List.filter_sublist.map _
  | folders => exact .of_eq (by simp [labels, Numbered.labels, hl]) (by simp [last, Numbered.last, hl])

theorem numbers_deleteFolder {id : Option Int} {found : Bool}
    (h : s.deleteFolder id = .ok (found, s')) : Numbers k [] s s' := by
  obtain ⟨l, hl, -, -, -, rfl⟩ := deleteFolder_eq_ok.1 h
  cases k with
  | folders =>
    refine ⟨?_, rfl, by simp [last, Numbered.last, hl], List.forall_mem_nil _⟩
    rw [List.append_nil, labels, labels, hl]
    exact List.filter_sublist.map _
  | projects =>
    exact .of_eq (by simp [labels, Numbered.labels, hl]) (by simp [last, Numbered.last, hl])

/-- A project that leaves its folder is the same project. -/
theorem numbers_leaveFolder {id : Option Int} (h : s.leaveFolder id = .ok s') :
    Numbers k [] s s' := by
  obtain ⟨l, hl, -, rfl⟩ := leaveFolder_eq_ok.1 h
  refine .of_eq ?_ (by cases k <;> simp [last, Numbered.last, hl])
  rw [labels, labels, hl, ledger_setLedger]
  cases k with
  | projects =>
    simp only [Option.elim_some, Numbered.labels, List.map_map]
    refine List.map_congr_left fun p _ => ?_
    dsimp only [Function.comp_apply]
    split <;> rfl
  | folders => rfl

/-- **What a statement does to the numbered records.** Some get the numbers that follow,
    others only go. -/
theorem Step.numbers (h : Step s s') (k : Numbered) : ∃ new, Numbers k new s s' := by
  cases h with
  | insertTask new now h => exact ⟨_, numbers_insertTask h⟩
  | updateTask edit now row h => exact ⟨_, numbers_updateTask h⟩
  | deleteTask id found h => exact ⟨_, numbers_deleteTask h⟩
  | deleteTagsOf taskId h => exact ⟨_, numbers_deleteTagsOf h⟩
  | insertTag taskId tag h => exact ⟨_, numbers_insertTag h⟩
  | deleteSubtasksOf taskId h => exact ⟨_, numbers_deleteSubtasksOf h⟩
  | insertSubtask id taskId text h => exact ⟨_, numbers_insertSubtask h⟩
  | markSubtask id mark found h => exact ⟨_, numbers_markSubtask h⟩
  | insertProject name color description folderId p h => exact ⟨_, numbers_insertProject h⟩
  | leaveProject id h => exact ⟨_, numbers_leaveProject h⟩
  | deleteProject id found h => exact ⟨_, numbers_deleteProject h⟩
  | insertFolder name color description f h => exact ⟨_, numbers_insertFolder h⟩
  | leaveFolder id h => exact ⟨_, numbers_leaveFolder h⟩
  | deleteFolder id found h => exact ⟨_, numbers_deleteFolder h⟩
  | saveSetting key value h => exact ⟨_, numbers_saveSetting h⟩

/-! ## Numbers in order -/

theorem Step.isNumbered (h : Step s s') (hs : s.IsNumbered k) : s'.IsNumbered k := by
  obtain ⟨new, hnew⟩ := h.numbers k
  exact hnew.isNumbered hs

theorem isNumbered_of_labels (h : s.labels k = []) : s.IsNumbered k :=
  ⟨by rw [h]; exact .nil, by rw [h]; exact fun _ hx => nomatch hx⟩

theorem isNumbered_empty : IsNumbered k {} := isNumbered_of_labels rfl

/-- The first revision comes with empty tables, or goes with the tables that there are. -/
theorem Move.isNumbered (h : Move s s') (htables : s.TablesMatch) (hs : s.IsNumbered k) :
    s'.IsNumbered k := by
  have hsame (heq : s'.ledger = s.ledger) : s'.IsNumbered k :=
    (numbers_of_eq (k := k) heq).isNumbered hs
  cases h with
  | raise r hr =>
    cases r with
    | first =>
      have hempty := htables.ledger_raise (by rw [Revision.level] at hr; omega)
      exact isNumbered_of_labels (by cases k <;> rw [labels, hempty] <;> rfl)
    | second => exact hsame rfl
    | third => exact hsame rfl
  | lower r _ =>
    cases r with
    | first => exact isNumbered_of_labels rfl
    | second => exact hsame rfl
    | third => exact hsame rfl

/-! ## References -/

/-- In a sound store references lead to numbered records. -/
theorem exists_label_of_reference (hs : s.IsSound) {i : Int} (hi : i ∈ s.references k) :
    ∃ x ∈ s.labels k, x.id = i := by
  unfold references at hi
  unfold labels
  cases hl : s.ledger with
  | none =>
    rw [hl] at hi
    cases hi
  | some l =>
    rw [hl] at hi
    have hledger := hs.ledger l hl
    cases k with
    | projects =>
      obtain ⟨row, hrow, hid⟩ := List.mem_filterMap.1 hi
      obtain ⟨p, hp, hsame⟩ := hledger.task_project row hrow i hid
      exact ⟨p.label, List.mem_map_of_mem hp, hsame⟩
    | folders =>
      obtain ⟨p, hp, hid⟩ := List.mem_filterMap.1 hi
      obtain ⟨f, hf, hsame⟩ := hledger.project_folder p hp i hid
      exact ⟨f.label, List.mem_map_of_mem hf, hsame⟩

/-- **New numbers do not change what a reference leads to.** They are above the last one so
    far, so none of them is the number of a reference that was there before. -/
theorem Numbers.keeps_reference (h : Numbers k new s s') (hs : s.IsSound) (hs' : s'.IsSound)
    (hnumbered : s.IsNumbered k) {i : Int} (hi : i ∈ s.references k) :
    (∀ x ∈ new, x.id ≠ i) ∧
      (i ∈ s'.references k → ∃ x ∈ s.labels k, x.id = i ∧
        ∀ y, y ∈ s'.labels k ∧ y.id = i ↔ y = x) := by
  obtain ⟨x, hx, rfl⟩ := exists_label_of_reference hs hi
  have hnew : ∀ y ∈ new, y.id ≠ x.id := by
    intro y hy hsame
    have hbound := hnumbered.bounded x hx
    have habove := h.lt_id hy
    omega
  have hold {y : Label} (hy : y ∈ s'.labels k) (hid : y.id = x.id) : y = x := by
    rcases List.mem_append.1 (h.labels.subset hy) with hy | hy
    · exact hnumbered.eq_of_id hy hx hid
    · exact absurd hid (hnew y hy)
  refine ⟨hnew, fun hi' => ⟨x, hx, rfl, fun y => ⟨fun hy => hold hy.1 hy.2, ?_⟩⟩⟩
  rintro rfl
  obtain ⟨z, hz, hid⟩ := exists_label_of_reference hs' hi'
  exact ⟨hold hz hid ▸ hz, rfl⟩

end Store
end TaskDesk
