import Mathlib.Data.List.Nodup
import TaskDesk.Proofs.Desk.Subtasks
import TaskDesk.Proofs.Service.Requests

/-!
# The life of a subtask

A subtask lives from the call that creates it to the call that drops it, and only marks
change it in between. What makes this hold over a whole run is that ids of subtasks come
from a source that never repeats one: an id that was used and is not stored any more cannot
come back.

Results:
* `Desk.IsSteady.perform`: what every call keeps.
* `Desk.IsSteady.lacks_called`: an id that is gone stays gone.
* `Desk.IsSteady.mem_called_iff`: what becomes of a stored subtask in a run.
* `Desk.subtask_lifetime`: the life of a subtask in a run on a fresh store.
-/

namespace TaskDesk

namespace Desk

/-! ## Runs of calls -/

/-- The desk after calls, made one after the other, failing or not. -/
def called (source : Source) (d : Desk) (calls : List Command) : Desk :=
  d.after source (calls.map .command)

/-- Whether one of the calls drops the subtasks of a task. -/
def drops (source : Source) (task : Text) : Desk → List Command → Bool
  | _, [] => false
  | d, c :: more => c.drops source d task || drops source task ((c.perform source).on d).2 more

/-- The marks that the calls set on a subtask, first to last. -/
def marks (source : Source) (id : Text) : Desk → List Command → List Bool
  | _, [] => []
  | d, c :: more => (c.toggles d id).toList ++ marks source id ((c.perform source).on d).2 more

/-- No stored subtask has the id. -/
def Lacks (id : Text) (d : Desk) : Prop := ∀ row ∈ d.store.subtaskList, row.id ≠ id

variable {source : Source} {d : Desk}

/-- A call leaves the desk that its work leaves. -/
theorem run_command_desk (c : Command) :
    ((Event.command c).run source d).2 = ((c.perform source).on d).2 := by
  unfold Event.run
  dsimp only
  split <;> (rename_i h; rw [h])

theorem called_cons (c : Command) (more : List Command) :
    d.called source (c :: more) = ((c.perform source).on d).2.called source more := by
  rw [called, List.map_cons, after, List.foldl_cons, run_command_desk]
  rfl

theorem called_append (earlier later : List Command) :
    d.called source (earlier ++ later) = (d.called source earlier).called source later := by
  rw [called, List.map_append, after_append]
  rfl

/-! ## What calls keep -/

/-- The id was used before. -/
def Issued (source : Source) (d : Desk) (id : Text) : Prop := ∃ n < d.idsUsed, id = source.id n

/-- The store is sound, it has all its tables, and the subtasks have ids from the source. -/
structure IsSteady (source : Source) (d : Desk) : Prop where
  sound : d.store.IsSound
  subtasks : d.store.subtasks.isSome
  issued : ∀ row ∈ d.store.subtaskList, d.Issued source row.id

theorem Issued.mono {e : Desk} {id : Text} (h : d.Issued source id) (hcounts : Counts d e) :
    e.Issued source id := by
  obtain ⟨n, hn, hid⟩ := h
  exact ⟨n, Nat.lt_of_lt_of_le hn hcounts, hid⟩

/-- Ids that subtasks get on the way from one desk to the other were used there. -/
theorem issued_of_passes {e : Desk} {drops : Text → Bool} {mark : Text → Option Bool}
    (hpasses : Passes source drops mark d e)
    (hissued : ∀ row ∈ d.store.subtaskList, d.Issued source row.id) :
    ∀ row ∈ e.store.subtaskList, e.Issued source row.id := by
  intro row hrow
  rcases hpasses.cases hrow with ⟨old, hold, -, rfl⟩ | hnew
  · exact (hissued old hold).mono hpasses.counts
  · obtain ⟨n, -, hlt, hid⟩ := hnew.id
    exact ⟨n, hlt, hid⟩

/-- The next ids are not in use by subtasks, if the source never repeats one. -/
theorem fresh_of_issued (hsource : Function.Injective source.id)
    (hissued : ∀ row ∈ d.store.subtaskList, d.Issued source row.id) (n : Nat) (hn : d.idsUsed ≤ n) :
    ∀ row ∈ d.store.subtaskList, row.id ≠ source.id n := by
  intro row hrow hid
  obtain ⟨m, hm, hused⟩ := hissued row hrow
  have hsame : m = n := hsource (hused.symm.trans hid)
  omega

theorem isSteady_fresh : fresh.IsSteady source where
  sound := Store.isHealthy_fresh.sound
  subtasks := rfl
  issued _ hrow := nomatch hrow

namespace IsSteady

theorem passes (hd : d.IsSteady source) (c : Command) :
    Passes source (c.drops source d) (c.toggles d) d ((c.perform source).on d).2 :=
  c.passes hd.sound hd.subtasks

theorem perform (hd : d.IsSteady source) (c : Command) :
    ((c.perform source).on d).2.IsSteady source where
  sound := Store.keeps_run (c.orderly source d) (fun _ _ h => h.isSound) hd.sound
  subtasks := by
    rw [(Store.Steps.sameTables (c.orderly source d)).subtasks]
    exact hd.subtasks
  issued := issued_of_passes (hd.passes c) hd.issued

theorem called (hd : d.IsSteady source) (calls : List Command) :
    (d.called source calls).IsSteady source := by
  induction calls generalizing d with
  | nil => exact hd
  | cons c more ih =>
    rw [called_cons]
    exact ih (hd.perform c)

theorem counts_called (hd : d.IsSteady source) (calls : List Command) :
    Counts d (d.called source calls) := by
  induction calls generalizing d with
  | nil => exact Nat.le_refl _
  | cons c more ih =>
    rw [called_cons]
    exact Nat.le_trans (hd.passes c).counts (ih (hd.perform c))

/-- Ids of stored subtasks are unique. -/
theorem eq_of_id (hd : d.IsSteady source) {row row' : SubtaskRow}
    (hrow : row ∈ d.store.subtaskList) (hrow' : row' ∈ d.store.subtaskList)
    (hid : row.id = row'.id) : row = row' := by
  obtain ⟨rows, hrows⟩ := Option.isSome_iff_exists.1 hd.subtasks
  rw [Store.subtaskList_eq hrows] at hrow hrow'
  exact List.inj_on_of_nodup_map (hd.sound.subtask_ids rows hrows) hrow hrow' hid

/-! ## An id that is gone -/

theorem lacks_perform (hd : d.IsSteady source) (hsource : Function.Injective source.id) {id : Text}
    (hid : d.Issued source id) (c : Command)
    (hold : ∀ row ∈ d.store.subtaskList, row.id = id → c.drops source d row.taskId = true) :
    ((c.perform source).on d).2.Lacks id := by
  rintro row hrow rfl
  rcases (hd.passes c).cases hrow with ⟨old, hmem, hstays, rfl⟩ | hnew
  · rw [hold old hmem rfl] at hstays
    cases hstays
  · obtain ⟨m, hm, -, hnewId⟩ := hnew.id
    obtain ⟨n, hn, hissued⟩ := hid
    have hsame : m = n := hsource (hnewId.symm.trans hissued)
    omega

/-- **An id that is gone stays gone**, if the source never repeats one. -/
theorem lacks_called (hd : d.IsSteady source) (hsource : Function.Injective source.id) {id : Text}
    (hid : d.Issued source id) (hgone : d.Lacks id) (calls : List Command) :
    (d.called source calls).Lacks id := by
  induction calls generalizing d with
  | nil => exact hgone
  | cons c more ih =>
    rw [called_cons]
    refine ih (hd.perform c) (hid.mono (hd.passes c).counts) ?_
    exact hd.lacks_perform hsource hid c fun row hrow h => absurd h (hgone row hrow)

/-! ## A subtask that is stored -/

/-- **What becomes of a stored subtask.** It stays until a call drops it, with the last
    mark that was set on it. The induction is on the calls; a call that does not drop the
    subtask leaves a marked one with the same id and the same task. -/
theorem mem_called_iff (hd : d.IsSteady source) (hsource : Function.Injective source.id)
    {row : SubtaskRow} (hrow : row ∈ d.store.subtaskList) (calls : List Command) (r : SubtaskRow) :
    r ∈ (d.called source calls).store.subtaskList ∧ r.id = row.id ↔
      d.drops source row.taskId calls = false ∧
        r = row.marked (d.marks source row.id calls).getLast? := by
  induction calls generalizing d row with
  | nil =>
    constructor
    · rintro ⟨hr, hid⟩
      exact ⟨rfl, hd.eq_of_id hr hrow hid⟩
    · rintro ⟨-, rfl⟩
      exact ⟨hrow, rfl⟩
  | cons c more ih =>
    have hnext := hd.perform c
    rw [called_cons, Desk.drops, marks, Bool.or_eq_false_iff]
    cases hdrop : c.drops source d row.taskId with
    | true =>
      have hissued := hd.issued row hrow
      have hlacks : ((c.perform source).on d).2.Lacks row.id :=
        hd.lacks_perform hsource hissued c fun old hold hid => hd.eq_of_id hold hrow hid ▸ hdrop
      have hgone := hnext.lacks_called hsource (hissued.mono (hd.passes c).counts) hlacks more
      exact iff_of_false (fun h => hgone r h.1 h.2) fun h => Bool.noConfusion h.1.1
    | false =>
      have hmarked := ih hnext ((hd.passes c).mem_marked hrow hdrop)
      rw [SubtaskRow.marked_marked] at hmarked
      have hfirst : (c.toggles d row.id).toList.getLast? = c.toggles d row.id := by
        cases c.toggles d row.id <;> rfl
      rw [List.getLast?_append, hfirst, eq_self, true_and]
      exact hmarked

end IsSteady

/-! ## Runs on a fresh store -/

/-- A subtask that a call brings in is open, and its id was used by then. -/
theorem IsSteady.created (hd : d.IsSteady source) (c : Command) {row : SubtaskRow}
    (habsent : d.Lacks row.id) (hrow : row ∈ ((c.perform source).on d).2.store.subtaskList) :
    row.completed = false := by
  rcases (hd.passes c).cases hrow with ⟨old, hold, -, rfl⟩ | hnew
  · exact absurd rfl (habsent old hold)
  · exact hnew.completed

/-- **The life of a subtask.** In a run of calls on a fresh store, a subtask that one of
    them creates is stored, with its text and its task, until a call drops the subtasks of
    its task; it is open until it is marked, and then it has the last mark. Once its id is
    gone, no subtask has it again. Calls that fail are calls like others here. -/
theorem subtask_lifetime (hsource : Function.Injective source.id)
    (earlier later more : List Command) (c : Command) {row : SubtaskRow}
    (habsent : (fresh.called source earlier).Lacks row.id)
    (hcreated : row ∈ (fresh.called source (earlier ++ [c])).store.subtaskList) :
    let created := fresh.called source (earlier ++ [c])
    (∀ r, r ∈ (created.called source later).store.subtaskList ∧ r.id = row.id ↔
      created.drops source row.taskId later = false ∧
        r = { row with
          completed := (created.marks source row.id later).getLast?.getD false }) ∧
    ((created.called source later).Lacks row.id →
      (created.called source (later ++ more)).Lacks row.id) := by
  intro created
  have hearlier : (fresh.called source earlier).IsSteady source := isSteady_fresh.called earlier
  have hsteady : created.IsSteady source := isSteady_fresh.called (earlier ++ [c])
  have hopen : row.completed = false := by
    have hrow := hcreated
    rw [called_append, called_cons] at hrow
    exact hearlier.created c habsent hrow
  refine ⟨fun r => ?_, fun hgone => ?_⟩
  · have hlife := hsteady.mem_called_iff hsource hcreated later r
    rw [SubtaskRow.marked, hopen] at hlife
    exact hlife
  · rw [called_append]
    have hissued := (hsteady.issued row hcreated).mono (hsteady.counts_called later)
    exact (hsteady.called later).lacks_called hsource hissued hgone more

/-- A subtask is marked as done, and stays so while another one is marked and its task is
    given the same texts, or others that are refused. It goes with its task, for good. -/
theorem subtask_lifetime_passport :
    let source : Source := ⟨fun n => List.replicate n 'i', fun _ => []⟩
    let create : Command := .createTask {
      id := some "pack".toText, title := some "Pack".toText
      subtasks := [some "Charger".toText, some "Passport".toText] }
    let later : List Command := [
      .toggleSubtask (some "i".toText) 1,
      .toggleSubtask (some []) 1,
      .updateTask (some "pack".toText) {
        title := .set "Go".toText
        subtasks := some [some "Charger".toText, some "Passport".toText] },
      .updateTask (some "pack".toText) { subtasks := some [some "Tickets".toText, none] },
      .toggleSubtask (some []) 0]
    let delete : Command := .deleteTask (some "pack".toText)
    let passport : SubtaskRow := ⟨"i".toText, "pack".toText, "Passport".toText, false⟩
    let created := fresh.called source ([] ++ [create])
    Function.Injective source.id ∧ (fresh.called source []).Lacks passport.id ∧
      passport ∈ created.store.subtaskList ∧
      { passport with completed := true } ∈ (created.called source later).store.subtaskList ∧
      (created.called source (later ++ [delete])).Lacks passport.id ∧
      (created.called source (later ++ [delete] ++ [create])).Lacks passport.id := by
  intro source create later delete passport created
  have hsource : Function.Injective source.id := by
    intro m n h
    have hlength := congrArg List.length h
    rwa [List.length_replicate, List.length_replicate] at hlength
  have habsent : (fresh.called source []).Lacks passport.id := fun _ hrow => nomatch hrow
  have hcreated : passport ∈ created.store.subtaskList := by decide +kernel
  have hlife := subtask_lifetime hsource [] later [] create habsent hcreated
  have hend := subtask_lifetime hsource [] (later ++ [delete]) [create] create habsent hcreated
  have hdone := (hlife.1 { passport with completed := true }).2 (by decide +kernel)
  have hdropped : created.drops source passport.taskId (later ++ [delete]) = true := by
    decide +kernel
  have hgone : (created.called source (later ++ [delete])).Lacks passport.id := by
    intro r hr hid
    exact Bool.false_ne_true (((hend.1 r).1 ⟨hr, hid⟩).1.symm.trans hdropped)
  exact ⟨hsource, habsent, hcreated, hdone.1, hgone, hend.2 hgone⟩

end Desk
end TaskDesk
