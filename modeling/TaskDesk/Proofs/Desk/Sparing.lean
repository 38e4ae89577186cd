import TaskDesk.Proofs.Desk.Kept
import TaskDesk.Proofs.Store.Absent

/-!
# Sparing work

Work spares a store if it comes to a good outcome there or leaves the store as it was.
This is more than a transaction promises: an outcome may also say that nothing was found,
and what was written has to be read back. In a store that is healthy, which means sound
and presentable, all work on tasks, projects, folders and settings is sparing.

Results:
* `Work.Spares.map`, `Work.Spares.transaction` and companions: when the parts of work
  spare a store.
* `Desk.on_readBack`: a task that is stored can be read back.
* `Desk.spares_createTask`, `Desk.spares_updateTask` and companions: what is done to
  tasks, projects, folders and settings.
-/

namespace TaskDesk

/-- A store with its integrity, which can be shown. -/
structure Store.IsHealthy (s : Store) : Prop where
  sound : s.IsSound
  presentable : s.IsPresentable

namespace Work

variable {α β : Type} {P : Store → Prop} {good : α → Prop}

/-- Where the store has the property, the outcome is good or the store is as it was. -/
def Spares (P : Store → Prop) (good : α → Prop) (a : Work α) : Prop :=
  ∀ d, P d.store → (∃ x, (a.on d).1 = .ok x ∧ good x) ∨ (a.on d).2.store = d.store

/-- Work that keeps every property of the store leaves the store alone. -/
theorem Keeps.store_eq {a : Work α} (ha : ∀ {P}, Keeps P a) (d : Desk) :
    (a.on d).2.store = d.store :=
  ha (P := (· = d.store)) d rfl

namespace Spares

theorem of_keeps {a : Work α} (ha : ∀ {P}, Keeps P a) : Spares P good a :=
  fun d _ => .inr (Keeps.store_eq ha d)

theorem pure (a : α) : Spares P good (pure a) := of_keeps (.pure a)

/-- What comes after work that leaves the store alone. -/
theorem bind {a : Work β} {f : β → Work α} (ha : ∀ {P}, Keeps P a)
    (hf : ∀ x, Spares P good (f x)) : Spares P good (a >>= f) := by
  intro d h
  have hsame := Keeps.store_eq ha d
  rw [on_bind]
  split
  · rename_i x after hx
    rw [hx] at hsame
    rw [← hsame] at h ⊢
    exact hf x after h
  · rename_i fault after hx
    rw [hx] at hsame
    exact .inr hsame

/-- What comes after a look at the store knows what was seen. -/
theorem query_bind {read : Store → Except Fault β} {f : β → Work α}
    (hf : ∀ x, Spares (fun s => P s ∧ read s = .ok x) good (f x)) :
    Spares P good (query read >>= f) := by
  intro d h
  rw [on_bind, on_query]
  cases hread : read d.store with
  | ok x => exact hf x d ⟨h, hread⟩
  | error fault => exact .inr rfl

/-- What is done with an outcome. -/
theorem map {a : Work α} {f : α → β} {good' : β → Prop} (ha : Spares P good a)
    (hf : ∀ x, good x → good' (f x)) : Spares P good' (a >>= fun x => Pure.pure (f x)) := by
  intro d h
  rw [on_bind]
  rcases ha d h with ⟨x, hx, hgood⟩ | hsame
  · refine .inl ⟨f x, ?_, hf x hgood⟩
    split
    · rename_i y after hy
      rw [hy] at hx
      cases hx
      rfl
    · rename_i fault after hy
      rw [hy] at hx
      cases hx
  · right
    split <;> (rename_i hy; rw [hy] at hsame; exact hsame)

theorem change {write : Store → Except Fault (α × Store)}
    (hwrite : ∀ {s s' x}, P s → write s = .ok (x, s') → good x ∨ s' = s) :
    Spares P good (change write) := by
  intro d h
  rw [on_change]
  split
  · rename_i x store hw
    exact (hwrite h hw).imp (fun hgood => ⟨x, rfl, hgood⟩) id
  · exact .inr rfl

/-- A transaction that fails is taken back, so only its outcome counts. -/
theorem transaction {a : Work α}
    (ha : ∀ {d d' x}, P d.store → a.on d = (.ok x, d') → good x ∨ d'.store = d.store) :
    Spares P good (transaction a) := by
  intro d h
  rw [on_transaction]
  split
  · rename_i x after hx
    exact (ha h hx).imp (fun hgood => ⟨x, rfl, hgood⟩) id
  · exact .inr rfl

theorem mono {Q : Store → Prop} {a : Work α} (ha : Spares P good a) (h : ∀ {s}, Q s → P s) :
    Spares Q good a := fun d hd => ha d (h hd)

end Spares
end Work

namespace Desk

open Work Store

variable {source : Source} {d : Desk}

/-! ## Tasks -/

theorem readBack_on_of_ok {id : Option Text} {task : Task}
    (h : d.store.task? id = .ok (some task)) : (readBack id).on d = (.ok task, d) := by
  rw [readBack, on_bind, on_query, h]
  rfl

theorem on_readBack {id : Option Text} (hs : d.store.IsPresentable) (hid : d.store.HasTask id) :
    ∃ task, (readBack id).on d = (.ok task, d) ∧ ∀ t ∈ task.texts, t.isEncodable = true := by
  obtain ⟨l, hl, hid⟩ := hid
  obtain ⟨task, htask, htexts⟩ := hs.task? hl hid
  exact ⟨task, readBack_on_of_ok htask, htexts⟩

/-- A transaction that leaves a presentable store with the task that is read back. -/
theorem spares_readBack {P : Store → Prop} {a : Work Unit} {id : Option Text}
    (hwritten : ∀ {d d' u}, P d.store → a.on d = (.ok u, d') →
      d'.store.IsPresentable ∧ d'.store.HasTask id) :
    Spares P (fun task : Task => ∀ t ∈ task.texts, t.isEncodable = true)
      (transaction a >>= fun _ => readBack id) := by
  intro d h
  rw [on_bind, on_transaction]
  cases hrun : a.on d with
  | mk outcome after =>
    cases outcome with
    | ok u =>
      obtain ⟨hafter, hid⟩ := hwritten h hrun
      obtain ⟨task, hread, htexts⟩ := on_readBack hafter hid
      exact .inl ⟨task, congrArg Prod.fst hread, htexts⟩
    | error fault => exact .inr rfl

theorem spares_createTask {new : NewTask} (hid : new.id.isSome)
    (hpriority : ∀ p ∈ new.priority, (Priority.ofName? p).isSome) :
    Spares IsPresentable (fun task => ∀ t ∈ task.texts, t.isEncodable = true)
      (createTask source new) := by
  rw [createTask_eq]
  refine .bind (.now source) fun time => spares_readBack fun hs hrun => ⟨?_, ?_⟩
  · exact (keeps_writeTask hid hpriority).of_on hs hrun
  · obtain ⟨_, inserted, hinsert, hparts⟩ := bind_on_ok hrun
    have hkept : Keeps (HasTask new.id)
        (saveTags new.id new.tags >>= fun _ => saveSubtasks source new.id new.subtasks) :=
      .bind (.saveTags (keptByParts_hasTask _) _ _) fun _ =>
        .saveSubtasks (keptByParts_hasTask _) _ _
    exact hkept.of_on (hasTask_of_insertTask hid (execute_on_ok hinsert)) hparts

theorem hasTask_of_taskRow? {s : Store} {id : Option Text} {row : TaskRow}
    (h : s.taskRow? id = .ok (some row)) : s.HasTask id := by
  obtain ⟨l, hl, -, hfound⟩ := taskRow?_eq_ok.1 h
  have hsame : sameId id row.id = true := by simpa using List.find?_some hfound
  exact ⟨l, hl, List.any_eq_true.2 ⟨row, List.mem_of_find?_eq_some hfound, hsame⟩⟩

/-- A task that is not there is not changed. -/
theorem spares_updateTask (id : Option Text) {change : TaskChange}
    (hchange : change.toTaskEdit.IsPresentable) :
    Spares IsPresentable
      (fun found => ∃ task ∈ found, ∀ t ∈ task.texts, t.isEncodable = true)
      (updateTask source id change) := by
  rw [updateTask_eq]
  refine .query_bind fun found => ?_
  cases found with
  | none => exact .pure none
  | some row =>
    refine .map (spares_readBack fun h hrun => ⟨?_, ?_⟩) fun task h => ⟨task, rfl, h⟩
    · have hrow := taskRow?_isPresentable h.1 h.2
      exact (keeps_rewriteTask keptByParts_isPresentable fun hs h =>
        hs.updateTask hchange hrow h).of_on h.1 hrun
    · exact (keeps_rewriteTask (keptByParts_hasTask id) fun hs h =>
        hs.updateTask hchange h).of_on (hasTask_of_taskRow? h.2) hrun

theorem spares_deleteTask (id : Option Text) : Spares IsSound (· = true) (deleteTask id) := by
  refine .change fun {s s' found} hs h => ?_
  cases found with
  | true => exact .inl rfl
  | false => exact .inr (hs.deleteTask_absent h)

theorem any_of_markSubtask {s s' : Store} {id : Option Text} {mark : Int}
    (h : s.markSubtask id mark = .ok (true, s')) :
    ∃ rows, s'.subtasks = some rows ∧ (rows.any fun row => sameId id (some row.id)) = true := by
  obtain ⟨rows, -, -, -, hfound, rfl⟩ := markSubtask_eq_ok.1 h
  refine ⟨_, rfl, hfound ▸ ?_⟩
  rw [List.any_map]
  refine congrArg rows.any (funext fun row => ?_)
  dsimp only [Function.comp_apply]
  split <;> rfl

/-- A subtask that was marked can be read, and none is marked that is not there. -/
theorem spares_toggleSubtask (id : Option Text) (mark : Int) :
    Spares IsPresentable
      (fun found => ∃ subtask ∈ found, ∀ t ∈ subtask.texts, t.isEncodable = true)
      (toggleSubtask id mark) := by
  intro d hs
  rw [toggleSubtask, on_bind, on_change]
  cases hmark : d.store.markSubtask id mark with
  | error fault => exact .inr rfl
  | ok result =>
    obtain ⟨found, store⟩ := result
    cases found with
    | false => exact .inr (markSubtask_absent hmark)
    | true =>
      obtain ⟨rows, hrows, hid⟩ := any_of_markSubtask hmark
      obtain ⟨subtask, hread, htexts⟩ := (hs.markSubtask hmark).subtask? hrows hid
      exact .inl ⟨some subtask, hread, subtask, rfl, htexts⟩

/-! ## Projects, folders and settings -/

theorem spares_createProject (name color description : Option Text) (folderId : Option Int) :
    Spares IsPresentable (fun p : Project => ∀ t ∈ p.texts, t.isEncodable = true)
      (createProject name color description folderId) :=
  .change fun hs h => .inl (hs.insertProject h).2

theorem spares_createFolder (name color description : Option Text) :
    Spares IsPresentable (fun f : Folder => ∀ t ∈ f.texts, t.isEncodable = true)
      (createFolder name color description) :=
  .change fun hs h => .inl (hs.insertFolder h).2

/-- Where no project is found, nothing has left it either. -/
theorem spares_deleteProject (id : Option Int) :
    Spares IsSound (· = true) (deleteProject id) := by
  refine .transaction fun {d d' found} hs hrun => ?_
  obtain ⟨_, left, hleave, hdelete⟩ := bind_on_ok hrun
  cases found with
  | true => exact .inl rfl
  | false =>
    exact .inr (hs.leave_deleteProject_absent (execute_on_ok hleave) (change_on_ok hdelete))

/-- Where no folder is found, nothing has left it either. -/
theorem spares_deleteFolder (id : Option Int) :
    Spares IsSound (· = true) (deleteFolder id) := by
  refine .transaction fun {d d' found} hs hrun => ?_
  obtain ⟨_, left, hleave, hdelete⟩ := bind_on_ok hrun
  cases found with
  | true => exact .inl rfl
  | false =>
    exact .inr (hs.leave_deleteFolder_absent (execute_on_ok hleave) (change_on_ok hdelete))

theorem isEncodable_modeSetting : IsEncodable (some modeSetting) := isEncodable_some.2 (by decide)

theorem spares_setInputMode {P : Store → Prop} (mode : Option Text) :
    Spares P (fun _ => True) (setInputMode mode) :=
  .change fun _ _ => .inl trivial

end Desk
end TaskDesk
