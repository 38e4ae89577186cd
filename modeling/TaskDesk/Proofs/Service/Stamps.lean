import TaskDesk.Proofs.Desk.Stamps
import TaskDesk.Proofs.Service.Effect
import TaskDesk.Proofs.Service.Issued
import TaskDesk.Proofs.Text.Order

/-!
# Times of tasks in a run of requests

Where the clock shows later texts at every reading, the times of a task tell its history:
it was created before it was last changed, the time of its creation stays, the time of its
last change only grows, and where that time is the same as before nothing has changed that
it stands for. A task goes only with a request that deletes it.

Results:
* `Service.ages_respond`: what a request does to the tasks.
* `Desk.ages_requests`: what a run of requests does to the tasks.
* `Desk.times_tell`: what the times of a task tell.
-/

namespace TaskDesk

/-- Each reading of the clock is a later text than the ones before it. -/
def Source.IsAdvancing (source : Source) : Prop :=
  ∀ m n, m < n → Text.precedes (source.time m) (source.time n) = true ∧
    source.time m ≠ source.time n

theorem Source.IsAdvancing.precedes {source : Source} (h : source.IsAdvancing) {m n : Nat}
    (hmn : m ≤ n) : Text.precedes (source.time m) (source.time n) = true := by
  rcases Nat.lt_or_eq_of_le hmn with hlt | rfl
  · exact (h m n hlt).1
  · exact Text.precedes_refl _

theorem Source.IsAdvancing.ne {source : Source} (h : source.IsAdvancing) {m n : Nat} (hmn : m < n) :
    source.time n ≠ source.time m := (h m n hmn).2.symm

/-- The request deletes the task with the id. -/
def Request.Deletes (r : Request) (id : Option Text) : Prop :=
  ∃ a, id = some a ∧ Destination.ofRequest r.method r.path = .endpoint .deleteTask a

namespace Service

open Desk Work

variable {source : Source} {d : Desk}

/-- **What a request does to the tasks.** One case for each call. -/
theorem ages_respond (today : Date) (request : Request) (hd : d.IsOrdinary source) :
    Ages source request.Deletes d (respond source today request d).2 := by
  rcases effect_respond source today request d with
    hsame | ⟨e, segment, hgoes, heffect⟩
  · exact .of_store (Nat.le_of_eq (congrArg Desk.timesUsed hsame).symm) (congrArg Desk.store hsame)
  · obtain ⟨rows, hrows⟩ := hd.exists_subtasks
    generalize (respond source today request d).2 = after at heffect
    cases heffect with
    | rest => exact .refl d
    | createTask _ new tags texts hid htags htexts =>
      let begun : Desk := { d with idsUsed := d.idsUsed + 1 }
      have hbegun : Ages source (fun _ => False) d begun := .of_store (Nat.le_refl _) rfl
      have hcreated : Ages source request.Deletes begun ((Desk.createTask source new).on begun).2 :=
        ages_createTask (d := begun) hrows hid htags htexts
      exact (hbegun.trans hcreated).mono fun _ _ hgoes => hgoes.resolve_left fun h => h
    | updateTask c hc => exact ages_updateTask hd.regular segment hc
    | deleteTask =>
      exact (ages_deleteTask segment).mono fun row _ hid => ⟨segment, hid, hgoes⟩
    | toggleSubtask mark => exact (keepsFaces_toggleSubtask _ _ d).ages
    | createProject name color description folderId =>
      exact (keepsFaces_createProject _ _ _ _ d).ages
    | deleteProject id => exact (keepsFaces_deleteProject _ d).ages
    | createFolder name color description => exact (keepsFaces_createFolder _ _ _ d).ages
    | deleteFolder id => exact (keepsFaces_deleteFolder _ d).ages
    | setMode mode => exact (keepsFaces_setInputMode _ d).ages

end Service

namespace Desk

variable {source : Source} {d : Desk}

/-- **What a run of requests does to the tasks.** A task may go where one of the requests
    deletes it. The induction is on the requests. -/
theorem ages_requests (requests : List (Date × Request)) (hd : d.IsOrdinary source) :
    Ages source (fun id => ∃ sent ∈ requests, sent.2.Deletes id) d
      (d.after source (requests.map fun sent => .request sent.1 sent.2)) := by
  induction requests generalizing d with
  | nil => exact .refl d
  | cons first rest ih =>
    have hfirst := Service.ages_respond first.1 first.2 hd
    refine (hfirst.trans (ih (isOrdinary_respond first.2 hd).1)).mono fun row _ hgoes => ?_
    rcases hgoes with hfirst | ⟨sent, hsent, hdeletes⟩
    · exact ⟨first, List.mem_cons_self, hfirst⟩
    · exact ⟨sent, List.mem_cons_of_mem _ hsent, hdeletes⟩

theorem served_append (source : Source) (earlier later : List (Date × Request)) :
    served source (earlier ++ later) =
      (served source earlier).after source (later.map fun sent => .request sent.1 sent.2) := by
  rw [served, List.map_append, after_append]
  rfl

/-- Two stored tasks with the same id are one. -/
theorem IsOrdinary.eq_of_id (hd : d.IsOrdinary source) {row new : TaskRow} (hrow : row ∈ d.tasks)
    (hnew : new ∈ d.tasks) (hid : new.id = row.id) : new = row := by
  obtain ⟨l, hl, hshown⟩ := hd.regular.presentable.ledger
  rw [Desk.tasks, Store.firstTables_eq hl] at hrow hnew
  obtain ⟨a, ha⟩ := Option.isSome_iff_exists.1 (hshown.tasks row hrow).id
  exact Store.eq_of_id (hd.regular.sound.ledger l hl) hrow hnew ha (hid.trans ha)

/-- The times of every stored task were read, first that of its creation. -/
def IsDated (source : Source) (d : Desk) : Prop := ∀ row ∈ d.tasks, IsRecent source fresh d row

theorem isDated_served (requests : List (Date × Request)) :
    (served source requests).IsDated source := by
  intro row hrow
  rcases (ages_requests requests isOrdinary_fresh).back row hrow with ⟨old, hold, -⟩ | hrecent
  · cases hold
  · exact hrecent

section Advancing

variable {e : Desk} {gone : Option Text → Prop} {row new : TaskRow} (hclock : source.IsAdvancing)

include hclock

theorem IsDated.precedes (hdated : d.IsDated source) (hrow : row ∈ d.tasks) :
    Text.precedes row.createdAt row.updatedAt = true := by
  obtain ⟨m, n, -, hmn, -, hcreated, hupdated⟩ := hdated row hrow
  rw [hcreated, hupdated]
  exact hclock.precedes hmn

theorem Continues.precedes (h : Continues source d e row new) (hdated : d.IsDated source)
    (hrow : row ∈ d.tasks) : Text.precedes row.updatedAt new.updatedAt = true := by
  rcases h.stamp with ⟨hsame, -⟩ | ⟨n, hfrom, -, hstamp⟩
  · rw [hsame]
    exact Text.precedes_refl _
  · obtain ⟨-, m, -, -, hm, -, hupdated⟩ := hdated row hrow
    rw [hstamp, hupdated]
    exact hclock.precedes (Nat.le_of_lt (Nat.lt_of_lt_of_le hm hfrom))

/-- **A task with the time that it had looks as it did**: a time that was read later would be
    another one. -/
theorem Ages.face_eq (hages : Ages source gone d e) (hd : d.IsOrdinary source)
    (hdated : d.IsDated source) (hrow : row ∈ d.tasks) (hnew : new ∈ e.tasks)
    (hid : new.id = row.id) (htime : new.updatedAt = row.updatedAt) :
    e.store.face new = d.store.face row := by
  obtain ⟨-, m, -, -, hm, -, hupdated⟩ := hdated row hrow
  have hlater (n : Nat) (hn : d.timesUsed ≤ n) : new.updatedAt ≠ source.time n := by
    rw [htime, hupdated]
    exact (hclock.ne (Nat.lt_of_lt_of_le hm hn)).symm
  rcases hages.back new hnew with ⟨old, hold, hcontinues⟩ | ⟨k, n, hk, hkn, -, -, hstamp⟩
  · rw [hd.eq_of_id hrow hold (hcontinues.id.symm.trans hid)] at hcontinues
    rcases hcontinues.stamp with ⟨-, hface⟩ | ⟨n, hfrom, -, hstamp⟩
    · exact hface
    · exact absurd hstamp (hlater n hfrom)
  · exact absurd hstamp (hlater n (Nat.le_trans hk hkn))

end Advancing

/-- **What the times of a task tell.** In a run of requests to a fresh service, where each
    reading of the clock is a later text than those before: every task was created before it
    was last changed; unless a request deletes it, it stays with its id and the time of its
    creation, and the time of its last change only grows; and where that time is what it was,
    the title, the description, the due date, the priority, the tags and the texts of the
    subtasks are what they were. -/
theorem times_tell (source : Source) (hclock : source.IsAdvancing)
    (earlier later : List (Date × Request)) :
    let d := served source earlier
    let e := served source (earlier ++ later)
    (∀ row ∈ d.tasks, Text.precedes row.createdAt row.updatedAt = true) ∧
    (∀ row ∈ d.tasks, (∀ sent ∈ later, ¬ sent.2.Deletes row.id) →
      (∃ new ∈ e.tasks, new.id = row.id) ∧
      ∀ new ∈ e.tasks, new.id = row.id →
        new.createdAt = row.createdAt ∧ Text.precedes row.updatedAt new.updatedAt = true) ∧
    ∀ row ∈ d.tasks, ∀ new ∈ e.tasks, new.id = row.id → new.updatedAt = row.updatedAt →
      e.store.face new = d.store.face row := by
  intro d e
  have hd : d.IsOrdinary source := isOrdinary_served source earlier
  have he : e.IsOrdinary source := isOrdinary_served source (earlier ++ later)
  have hdated : d.IsDated source := isDated_served earlier
  have hages : Ages source (fun id => ∃ sent ∈ later, sent.2.Deletes id) d e := by
    have hrun := ages_requests later hd
    rwa [← served_append] at hrun
  refine ⟨fun row hrow => hdated.precedes hclock hrow, fun row hrow hstays => ?_,
    fun row hrow new hnew hid htime => hages.face_eq hclock hd hdated hrow hnew hid htime⟩
  obtain ⟨last, hlast, hcontinues⟩ := hages.forth row hrow fun ⟨sent, hsent, hdeletes⟩ =>
    hstays sent hsent hdeletes
  refine ⟨⟨last, hlast, hcontinues.id⟩, fun new hnew hid => ?_⟩
  rw [he.eq_of_id hlast hnew (hid.trans hcontinues.id.symm)]
  exact ⟨hcontinues.createdAt, hcontinues.precedes hclock hdated hrow⟩

/-- A clock that shows ever more strokes. -/
theorem isAdvancing_strokes (id : Nat → Text) :
    Source.IsAdvancing ⟨id, fun n => List.replicate n 'i'⟩ := by
  intro m n hmn
  have hlonger : List.replicate n (CodePoint.char 'i') =
      List.replicate m (CodePoint.char 'i') ++ List.replicate (n - m) (CodePoint.char 'i') := by
    rw [← List.replicate_add, Nat.add_sub_cancel' (Nat.le_of_lt hmn)]
  refine ⟨?_, fun hsame => ?_⟩
  · have hprefix := Text.precedes_append_left (List.replicate m (CodePoint.char 'i')) []
      (List.replicate (n - m) (CodePoint.char 'i'))
    rw [List.append_nil, ← hlonger] at hprefix
    exact hprefix
  · have hlength := congrArg List.length hsame
    rw [List.length_replicate, List.length_replicate] at hlength
    omega

/-- A task gets another subtask, which changes its time; then its project goes and the subtask is
    done, which does not. -/
theorem times_tell_packing :
    let source : Source := ⟨fun n => List.replicate (n + 1) 'i', fun n => List.replicate n 'i'⟩
    let today : Date := { year := 2025, month := 1, day := 15 }
    let send (method path json : String) : Date × Request :=
      (today, ⟨method.toText, path.toText, some (json.toList.map fun c => c.toNat.toUInt8)⟩)
    let earlier := [send "POST" "/projects" "\x7b\"name\":\"Trip\"\x7d",
      send "POST" "/tasks" "\x7b\"title\":\"Pack\",\"project_id\":1\x7d",
      send "PATCH" "/tasks/i" "\x7b\"subtasks\":[\"Passport\"]\x7d"]
    let later := [send "DELETE" "/projects/1" "",
      send "PATCH" "/subtasks/ii" "\x7b\"completed\":true\x7d"]
    let d := served source earlier
    let e := served source (earlier ++ later)
    let row : TaskRow := ⟨some "i".toText, "Pack".toText, some [], none, "medium".toText, 0, some 1,
      [], "i".toText⟩
    let new : TaskRow := { row with projectId := none }
    source.IsAdvancing ∧ row ∈ d.tasks ∧ new ∈ e.tasks ∧
      e.store.subtaskList.map (·.completed) = [true] ∧ e.store.face new = d.store.face row := by
  intro source today send earlier later d e row new
  have hclock : source.IsAdvancing := isAdvancing_strokes _
  have hrow : row ∈ d.tasks := by decide +kernel
  have hnew : new ∈ e.tasks := by decide +kernel
  exact ⟨hclock, hrow, hnew, by decide +kernel,
    (times_tell source hclock earlier later).2.2 row hrow new hnew rfl rfl⟩

end Desk
end TaskDesk
