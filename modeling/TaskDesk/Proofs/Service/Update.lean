import TaskDesk.Proofs.Desk.NewTask
import TaskDesk.Proofs.Service.Issued

/-!
# Requests that change a task

A request for a change to a task is refused at every desk alike if its body cannot be
accepted. Otherwise the task may be missing, or the store may have no room for the change;
then the store stays as it is. In all other cases the change is written, and the task that
is read back is answered.

Results:
* `Desk.updateTask_done`, `Desk.updateTask_failed`: a change to a task that is there.
* `Service.respond_rejected`: bodies that cannot be accepted.
* `Service.respond_absent`, `Service.respond_noRoom`, `Service.respond_written`: what comes of
  a body that is accepted.
-/

namespace TaskDesk

namespace Desk

open Work

variable {source : Source} {d d' : Desk} {a : Text} {c : TaskChange} {row : TaskRow}

theorem updateTask_absent (h : d.store.taskRow? (some a) = .ok none) :
    (updateTask source (some a) c).on d = (.ok none, d) := by
  rw [updateTask_eq, on_bind, on_query, h]
  rfl

/-- A change that is written is answered with the task as it is then. -/
theorem updateTask_done (hs : d.store.IsRegular) (hc : c.IsPlain)
    (hrow : d.store.taskRow? (some a) = .ok (some row)) {u : Unit}
    (h : (rewriteTask source (some a) c row).on d = (.ok u, d')) :
    ∃ t, (updateTask source (some a) c).on d = (.ok (some t), d') ∧
      d'.store.task? (some a) = .ok (some t) ∧ ∀ text ∈ t.texts, text.isEncodable = true := by
  obtain ⟨l, hl, -⟩ := hs.presentable.ledger
  have hlocates := hs.locates hl hrow
  obtain ⟨hs', htask⟩ := isRegular_rewriteTask hs hlocates hc h
  obtain ⟨t, hread, htexts⟩ := on_readBack hs'.presentable htask
  refine ⟨t, ?_, (readBack_on_ok hread).1, htexts⟩
  rw [updateTask_eq, on_bind, on_query, hrow]
  dsimp only
  rw [bind_on_of_ok ((bind_on_of_ok (transaction_on_of_ok h)).trans hread)]
  rfl

/-- A change that cannot be written is taken back. -/
theorem updateTask_failed (hrow : d.store.taskRow? (some a) = .ok (some row))
    (h : ¬ (rewriteTask source (some a) c row).Succeeds d) :
    ∃ fault d', (updateTask source (some a) c).on d = (.error fault, d') ∧ d'.store = d.store := by
  obtain ⟨fault, after, h⟩ := not_succeeds_iff.1 h
  refine ⟨fault, { after with store := d.store }, ?_, rfl⟩
  rw [updateTask_eq, on_bind, on_query, hrow]
  dsimp only
  rw [on_bind, on_bind, on_transaction, h]

end Desk

namespace Service

open Work Desk

variable {source : Source} {today : Date} {d : Desk} {request : Request} {a : Text}

/-- A body that cannot be accepted is answered in the same way at every desk. -/
theorem respond_rejected (source : Source) (today : Date)
    (hgoes : Destination.ofRequest request.method request.path = .endpoint .updateTask a)
    (hbody : Body.form? Body.taskChange request.body = none) :
    ∃ r : Reply, r.status ≠ 200 ∧ ∀ d, respond source today request d = (r, d) := by
  obtain ⟨r, hr, hreply⟩ := withBody_of_rejected hbody
  refine ⟨r.sent, Reply.sent_status_ne hr, fun d => ?_⟩
  rw [respond_endpoint hgoes, answer, hreply]
  rfl

section Accepted

variable (today) (hgoes : Destination.ofRequest request.method request.path = .endpoint .updateTask a)
  {c : TaskChange} (hbody : Body.form? Body.taskChange request.body = some c)

include hgoes hbody

theorem respond_updateTask :
    respond source today request d =
      settle (Desk.updateTask source (some a) c >>= fun found =>
        match found with
        | some task => pure (.ok (.task task))
        | none => pure (.notFound "Task not found")) d :=
  (respond_endpoint hgoes).trans (congrArg (settle · d) (withBody_of_form? hbody))

/-- A task that is missing is not changed. -/
theorem respond_absent (h : d.store.taskRow? (some a) = .ok none) :
    respond source today request d = (.notFound "Task not found", d) := by
  rw [respond_updateTask today hgoes hbody]
  refine settle_eq ?_ (Contents.isSendable_detail _)
  rw [bind_on_of_ok (updateTask_absent h)]
  rfl

variable {row : TaskRow} (hrow : d.store.taskRow? (some a) = .ok (some row))

include hrow

/-- A change that is written is answered with the task as it is then. -/
theorem respond_rewritten (hs : d.store.IsRegular) {u : Unit} {d' : Desk}
    (h : (rewriteTask source (some a) c row).on d = (.ok u, d')) :
    ∃ t, respond source today request d = (.ok (.task t), d') ∧
      d'.store.task? (some a) = .ok (some t) := by
  obtain ⟨t, hdone, htask, htexts⟩ := updateTask_done hs (Body.isPlain_of_form? hbody) hrow h
  refine ⟨t, ?_, htask⟩
  rw [respond_updateTask today hgoes hbody]
  refine settle_eq ?_ (Task.isSendable_toJson htexts)
  rw [bind_on_of_ok hdone]
  rfl

/-- A change that cannot be written is taken back, and the service fails. -/
theorem respond_failed (h : ¬ (rewriteTask source (some a) c row).Succeeds d) :
    (respond source today request d).1 = .failed ∧
      (respond source today request d).2.store = d.store := by
  obtain ⟨fault, d', hfailed, hstore⟩ := updateTask_failed hrow h
  rw [respond_updateTask today hgoes hbody, settle, on_bind, hfailed]
  exact ⟨rfl, hstore⟩

variable {l : Ledger} (hl : d.store.ledger = some l)

include hl

/-- Where the store has no room for the change, it stays as it is. -/
theorem respond_noRoom (hs : d.store.IsRegular) (hroom : ¬ c.IsStorable l) :
    (respond source today request d).1 = .failed ∧
      (respond source today request d).2.store = d.store := by
  refine respond_failed today hgoes hbody hrow ?_
  rintro ⟨u, d', h⟩
  exact hroom (rewriteTask_done hs (hs.locates hl hrow) (Body.isPlain_of_form? hbody)
    [] h fun _ _ _ => List.not_mem_nil).1

/-- **Where the store has room for the change** it is written, and the task is answered. -/
theorem respond_written (hsource : source.IsReliable) (hd : d.IsOrdinary source)
    (hroom : c.IsStorable l) :
    ∃ t, (respond source today request d).1 = .ok (.task t) ∧
      ∀ known, (∀ n, d.idsUsed ≤ n → source.id n ∉ known) →
        (respond source today request d).2.store.view known = (d.store.view known).patch a c := by
  have hc := Body.isPlain_of_form? hbody
  have hlocates := hd.regular.locates hl hrow
  obtain ⟨u, d', h⟩ := rewriteTask_succeeds hsource hd.regular (hd.fresh_subtask hsource) hlocates
    hc hroom
  obtain ⟨t, hrespond, -⟩ := respond_rewritten today hgoes hbody hrow hd.regular h
  rw [hrespond]
  refine ⟨t, rfl, fun known hknown => ?_⟩
  exact (rewriteTask_done hd.regular hlocates hc known h fun n hn _ => hknown n hn).2

end Accepted

/-- **A request that is answered** gave a change that was written to a task. -/
theorem exists_rewrite_of_ok
    (hgoes : Destination.ofRequest request.method request.path = .endpoint .updateTask a)
    (hs : d.store.IsRegular) (hstatus : (respond source today request d).1.status = 200) :
    ∃ c row u d', Body.form? Body.taskChange request.body = some c ∧
      d.store.taskRow? (some a) = .ok (some row) ∧
      (rewriteTask source (some a) c row).on d = (.ok u, d') := by
  cases hbody : Body.form? Body.taskChange request.body with
  | none =>
    obtain ⟨r, hr, hrespond⟩ := respond_rejected source today hgoes hbody
    rw [hrespond] at hstatus
    exact absurd hstatus hr
  | some c =>
    obtain ⟨l, hl, -⟩ := hs.presentable.ledger
    have ha := Destination.isEncodable_segment hgoes
    have hfound := Store.taskRow?_eq hl (isEncodable_some.2 ha)
    cases hrow : l.tasks.find? fun row => sameId (some a) row.id with
    | none =>
      rw [hrow] at hfound
      rw [respond_absent today hgoes hbody hfound] at hstatus
      exact absurd (show 404 = 200 from hstatus) (by decide)
    | some row =>
      rw [hrow] at hfound
      by_cases h : (rewriteTask source (some a) c row).Succeeds d
      · obtain ⟨u, d', h⟩ := h
        exact ⟨c, row, u, d', rfl, hfound, h⟩
      · rw [(respond_failed today hgoes hbody hfound h).1] at hstatus
        exact absurd (show 500 = 200 from hstatus) (by decide)

end Service
end TaskDesk
