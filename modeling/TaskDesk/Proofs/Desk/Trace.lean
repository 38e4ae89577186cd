import TaskDesk.Desk.Command
import TaskDesk.Proofs.Desk.Kept

/-!
# Traces of work

Work takes one desk to another, done or failed. A relation between the two holds of the
whole if it holds of the parts, provided that it goes on from desk to desk and does not
see what a transaction takes back. Some relations see only what was used of ids and times;
these hold of all work on tasks. Two relations matter for subtasks: the subtasks are left
alone and no id is used, and ids are only used up.

Results:
* `Work.Within.bind`, `Work.Within.transaction` and companions: a relation that holds of
  the parts of work holds of the work.
* `IsMeter.writeTask`, `IsMeter.rewriteTask`: relations that see only what was used.
* `Desk.leaves_saveTags` and companions: what is done to tags, projects, folders and
  settings leaves the subtasks alone.
* `Desk.isMeter_counts`: ids are only used up.
-/

namespace TaskDesk

/-- A relation between the desks before and after some work that goes on from desk to
    desk, and sees neither readings of the clock nor what is taken back. -/
structure IsTrace (R : Desk → Desk → Prop) : Prop where
  refl : ∀ d, R d d
  trans : ∀ {d e f}, R d e → R e f → R d f
  read_clock : ∀ d : Desk, R d { d with timesUsed := d.timesUsed + 1 }
  take_back : ∀ {d e : Desk}, R d e → R d { e with store := d.store }

namespace Work

variable {α β : Type} {R S : Desk → Desk → Prop} {source : Source}

/-- The desk after the work stands in the relation to the desk before it. -/
def Within (R : Desk → Desk → Prop) (a : Work α) : Prop := ∀ d, R d (a.on d).2

namespace Within

theorem mono {a : Work α} (ha : Within R a) (h : ∀ {d e}, R d e → S d e) : Within S a :=
  fun d => h (ha d)

theorem pure (hR : IsTrace R) (a : α) : Within R (pure a) := fun d => hR.refl d

theorem query (hR : IsTrace R) (read : Store → Except Fault α) : Within R (query read) :=
  fun d => hR.refl d

theorem now (hR : IsTrace R) : Within R (now source) := fun d => hR.read_clock d

theorem bind (hR : IsTrace R) {a : Work α} {f : α → Work β} (ha : Within R a)
    (hf : ∀ x, Within R (f x)) : Within R (a >>= f) := by
  intro d
  have first := ha d
  rw [on_bind]
  split
  · rename_i x after hx
    rw [hx] at first
    exact hR.trans first (hf x after)
  · rename_i fault after hx
    rw [hx] at first
    exact first

theorem change (hR : IsTrace R) {write : Store → Except Fault (α × Store)}
    (h : ∀ {d : Desk} {s x}, write d.store = .ok (x, s) → R d { d with store := s }) :
    Within R (change write) := by
  intro d
  rw [on_change]
  split
  · rename_i hw
    exact h hw
  · exact hR.refl d

theorem execute (hR : IsTrace R) {write : Store → Except Fault Store}
    (h : ∀ {d : Desk} {s}, write d.store = .ok s → R d { d with store := s }) :
    Within R (execute write) := by
  intro d
  rw [on_execute]
  split
  · rename_i hw
    exact h hw
  · exact hR.refl d

theorem transaction (hR : IsTrace R) {a : Work α} (ha : Within R a) :
    Within R (transaction a) := by
  intro d
  have whole := ha d
  rw [on_transaction]
  split
  · rename_i hx
    rw [hx] at whole
    exact whole
  · rename_i hx
    rw [hx] at whole
    exact hR.take_back whole

theorem of_on {a : Work α} (ha : Within R a) {r : Except Fault α} {d e : Desk}
    (hon : a.on d = (r, e)) : R d e := by
  have whole := ha d
  rw [hon] at whole
  exact whole

end Within
end Work

/-- A relation that sees only what was used of ids and times, of which work uses up more. -/
structure IsMeter (R : Desk → Desk → Prop) : Prop extends IsTrace R where
  take_id : ∀ d : Desk, R d { d with idsUsed := d.idsUsed + 1 }
  write : ∀ (d : Desk) (store : Store), R d { d with store }

namespace IsMeter

open Work

variable {α : Type} {R : Desk → Desk → Prop} {source : Source} (hR : IsMeter R)

include hR

theorem change (write : Store → Except Fault (α × Store)) : Within R (change write) :=
  .change hR.toIsTrace fun _ => hR.write _ _

theorem execute (write : Store → Except Fault Store) : Within R (execute write) :=
  .execute hR.toIsTrace fun _ => hR.write _ _

theorem newId : Within R (newId source) := fun d => hR.take_id d

theorem insertTags (taskId : Option Text) (tags : List (Option Text)) :
    Within R (Desk.insertTags taskId tags) := by
  induction tags with
  | nil => exact .pure hR.toIsTrace ()
  | cons tag more ih => exact .bind hR.toIsTrace (hR.execute _) fun _ => ih

theorem saveTags (taskId : Option Text) (tags : List (Option Text)) :
    Within R (Desk.saveTags taskId tags) :=
  .bind hR.toIsTrace (hR.execute _) fun _ => hR.insertTags _ _

theorem changeTags (taskId : Option Text) (tags : Option (List (Option Text))) :
    Within R (Desk.changeTags taskId tags) := by
  cases tags with
  | none => exact .pure hR.toIsTrace false
  | some tags =>
    refine .bind hR.toIsTrace (.query hR.toIsTrace _) fun old => ?_
    split
    · exact .pure hR.toIsTrace false
    · exact .bind hR.toIsTrace (hR.saveTags _ _) fun _ => .pure hR.toIsTrace true

theorem insertSubtasks (taskId : Option Text) (texts : List (Option Text)) :
    Within R (Desk.insertSubtasks source taskId texts) := by
  induction texts with
  | nil => exact .pure hR.toIsTrace ()
  | cons text more ih =>
    refine .bind hR.toIsTrace hR.newId fun id => ?_
    exact .bind hR.toIsTrace (hR.execute _) fun _ => ih

theorem saveSubtasks (taskId : Option Text) (texts : List (Option Text)) :
    Within R (Desk.saveSubtasks source taskId texts) :=
  .bind hR.toIsTrace (hR.execute _) fun _ => hR.insertSubtasks _ _

theorem changeSubtasks (taskId : Option Text) (texts : Option (List (Option Text))) :
    Within R (Desk.changeSubtasks source taskId texts) := by
  refine .bind hR.toIsTrace (.query hR.toIsTrace _) fun old => ?_
  cases texts with
  | none => exact .pure hR.toIsTrace false
  | some texts =>
    dsimp only
    split
    · exact .pure hR.toIsTrace false
    · exact .bind hR.toIsTrace (hR.saveSubtasks _ _) fun _ => .pure hR.toIsTrace true

theorem writeTask (new : NewTask) (time : Text) : Within R (Desk.writeTask source new time) := by
  refine .bind hR.toIsTrace (hR.execute _) fun _ => ?_
  exact .bind hR.toIsTrace (hR.saveTags _ _) fun _ => hR.saveSubtasks _ _

theorem rewriteTask (id : Option Text) (change : TaskChange) (row : TaskRow) :
    Within R (Desk.rewriteTask source id change row) := by
  refine .bind hR.toIsTrace (hR.changeTags _ _) fun tags => ?_
  refine .bind hR.toIsTrace (hR.changeSubtasks _ _) fun subtasks => ?_
  split
  · exact .bind hR.toIsTrace (.now hR.toIsTrace) fun time => hR.execute _
  · exact .pure hR.toIsTrace ()

end IsMeter

namespace Desk

open Work

variable {source : Source}

/-- The subtasks are left alone, and no id is used. -/
structure Leaves (d e : Desk) : Prop where
  subtasks : e.store.subtasks = d.store.subtasks
  idsUsed : e.idsUsed = d.idsUsed

/-- Ids are only used up. -/
def Counts (d e : Desk) : Prop := d.idsUsed ≤ e.idsUsed

theorem Leaves.counts {d e : Desk} (h : Leaves d e) : Counts d e := Nat.le_of_eq h.idsUsed.symm

theorem isTrace_leaves : IsTrace Leaves where
  refl _ := ⟨rfl, rfl⟩
  trans h h' := ⟨h'.subtasks.trans h.subtasks, h'.idsUsed.trans h.idsUsed⟩
  read_clock _ := ⟨rfl, rfl⟩
  take_back h := ⟨rfl, h.idsUsed⟩

theorem isMeter_counts : IsMeter Counts where
  refl _ := Nat.le_refl _
  trans h h' := Nat.le_trans h h'
  read_clock _ := Nat.le_refl _
  take_back h := h
  take_id d := Nat.le_succ d.idsUsed
  write _ _ := Nat.le_refl _

/-- A statement that leaves the subtasks alone. -/
theorem leaves_execute {write : Store → Except Fault Store}
    (h : ∀ {s s'}, write s = .ok s' → s'.subtasks = s.subtasks) :
    Within Leaves (execute write) :=
  .execute isTrace_leaves fun hw => ⟨h hw, rfl⟩

/-- A statement with an outcome that leaves the subtasks alone. -/
theorem leaves_change {α : Type} {write : Store → Except Fault (α × Store)}
    (h : ∀ {s s' x}, write s = .ok (x, s') → s'.subtasks = s.subtasks) :
    Within Leaves (change write) :=
  .change isTrace_leaves fun hw => ⟨h hw, rfl⟩

/-! ## Tasks -/

theorem leaves_insertTask (new : NewTaskRow) (time : Text) :
    Within Leaves (execute (Store.insertTask new time)) := by
  refine leaves_execute fun h => ?_
  obtain ⟨_, _, _, _, _, _, _, _, _, _, rfl⟩ := Store.insertTask_eq_ok.1 h
  rfl

theorem leaves_updateRow (edit : TaskEdit) (time : Text) (row : TaskRow) :
    Within Leaves (execute (Store.updateTask edit time row)) := by
  refine leaves_execute fun h => ?_
  obtain ⟨_, _, _, _, _, _, rfl⟩ := Store.updateTask_eq_ok.1 h
  rfl

theorem leaves_insertTags (taskId : Option Text) (tags : List (Option Text)) :
    Within Leaves (insertTags taskId tags) := by
  induction tags with
  | nil => exact .pure isTrace_leaves ()
  | cons tag more ih =>
    refine .bind isTrace_leaves (leaves_execute fun h => ?_) fun _ => ih
    obtain ⟨_, _, _, _, _, _, _, _, _, rfl⟩ := Store.insertTag_eq_ok.1 h
    rfl

theorem leaves_saveTags (taskId : Option Text) (tags : List (Option Text)) :
    Within Leaves (saveTags taskId tags) := by
  refine .bind isTrace_leaves (leaves_execute fun h => ?_) fun _ => leaves_insertTags _ _
  obtain ⟨_, _, _, rfl⟩ := Store.deleteTagsOf_eq_ok.1 h
  rfl

theorem leaves_changeTags (taskId : Option Text) (tags : Option (List (Option Text))) :
    Within Leaves (changeTags taskId tags) := by
  cases tags with
  | none => exact .pure isTrace_leaves false
  | some tags =>
    refine .bind isTrace_leaves (.query isTrace_leaves _) fun old => ?_
    split
    · exact .pure isTrace_leaves false
    · exact .bind isTrace_leaves (leaves_saveTags _ _) fun _ => .pure isTrace_leaves true

/-- The columns of a task are changed if anything makes a difference. -/
theorem leaves_updateColumns (differs : Bool) (edit : TaskEdit) (row : TaskRow) :
    Within Leaves (do
      if differs then
        let time ← now source
        execute (Store.updateTask edit time row)) := by
  split
  · exact .bind isTrace_leaves (.now isTrace_leaves) fun time => leaves_updateRow _ _ _
  · exact .pure isTrace_leaves ()

/-! ## Projects, folders and settings -/

theorem leaves_createProject (name color description : Option Text) (folderId : Option Int) :
    Within Leaves (createProject name color description folderId) := by
  refine leaves_change fun h => ?_
  obtain ⟨_, _, _, _, _, _, _, _, _, _, rfl⟩ := Store.insertProject_eq_ok.1 h
  rfl

theorem leaves_deleteProject (id : Option Int) : Within Leaves (deleteProject id) := by
  refine .transaction isTrace_leaves (.bind isTrace_leaves (leaves_execute fun h => ?_) fun _ =>
    leaves_change fun h => ?_)
  · obtain ⟨_, _, _, rfl⟩ := Store.leaveProject_eq_ok.1 h
    rfl
  · obtain ⟨_, _, _, _, _, rfl⟩ := Store.deleteProject_eq_ok.1 h
    rfl

theorem leaves_createFolder (name color description : Option Text) :
    Within Leaves (createFolder name color description) := by
  refine leaves_change fun h => ?_
  obtain ⟨_, _, _, _, _, _, _, _, rfl⟩ := Store.insertFolder_eq_ok.1 h
  rfl

theorem leaves_deleteFolder (id : Option Int) : Within Leaves (deleteFolder id) := by
  refine .transaction isTrace_leaves (.bind isTrace_leaves (leaves_execute fun h => ?_) fun _ =>
    leaves_change fun h => ?_)
  · obtain ⟨_, _, _, rfl⟩ := Store.leaveFolder_eq_ok.1 h
    rfl
  · obtain ⟨_, _, _, _, _, rfl⟩ := Store.deleteFolder_eq_ok.1 h
    rfl

theorem leaves_saveSetting (key value : Option Text) :
    Within Leaves (execute (Store.saveSetting key value)) := by
  refine leaves_execute fun h => ?_
  obtain ⟨_, _, _, _, _, h⟩ := Store.saveSetting_eq_ok.1 h
  split at h <;> subst h <;> rfl

theorem leaves_inputMode : Within Leaves inputMode :=
  .bind isTrace_leaves (.query isTrace_leaves _) fun _ => .pure isTrace_leaves _

end Desk
end TaskDesk
