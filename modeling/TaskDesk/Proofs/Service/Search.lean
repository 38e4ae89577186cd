import TaskDesk.Proofs.Filter.Selection
import TaskDesk.Proofs.Service.Requests

/-!
# Searches and the list of all tasks

A search selects from the list of all tasks in the same state. Both are worked out
without a change, so they can be compared.

Results:
* `respond_allTasks`, `respond_search`: what the two requests answer.
* `search_sublist_listed`: a search leaves tasks of the list out and moves none.
-/

namespace TaskDesk
namespace Service

open Work

variable {source : Source} {today : Date} {d : Desk} {tasks : List Task} {projects : List Project}

/-- Tasks from the list of all tasks can be sent. -/
theorem isSendable_tasks (hd : d.store.IsPresentable) (htasks : d.store.allTasks = .ok tasks)
    {ts : List Task} (hts : ∀ t ∈ ts, t ∈ tasks) : (Contents.tasks ts).isSendable = true := by
  obtain ⟨tasks', htasks', htexts⟩ := hd.allTasks
  rw [htasks] at htasks'
  cases htasks'
  exact Json.isSendable_listOf fun t ht => Task.isSendable_toJson (htexts t (hts t ht))

theorem respond_allTasks (hd : d.store.IsPresentable) (htasks : d.store.allTasks = .ok tasks)
    (body : Option (List UInt8)) :
    respond source today ⟨"GET".toText, "/tasks".toText, body⟩ d = (.ok (.tasks tasks), d) := by
  refine respond_eq .allTasks [] (by decide) (isSendable_tasks hd htasks fun _ h => h) ?_
  rw [answer, on_bind, on_query, htasks]
  rfl

/-- A search answers the tasks that meet its filters. -/
theorem respond_search (hd : d.store.IsPresentable) (htasks : d.store.allTasks = .ok tasks)
    (hprojects : d.store.allProjects = .ok projects) {text : Option (List UInt8)} {query : Text}
    (hquery : Body.read Body.queryForm text = some (.ok query)) :
    respond source today ⟨"POST".toText, "/search".toText, text⟩ d =
      (.ok (.tasks ((Filters.parse query).select today projects tasks)), d) := by
  have hfound (t : Task) (ht : t ∈ (Filters.parse query).select today projects tasks) : t ∈ tasks :=
    ((Filters.mem_select _ _ _ _ _).1 ht).1
  refine respond_eq .search [] (by decide) (isSendable_tasks hd htasks hfound) ?_
  rw [answer, withBody, hquery]
  dsimp only [checked]
  rw [on_bind, on_query, htasks]
  dsimp only
  rw [on_bind, on_query, hprojects]
  rfl

/-- **A search leaves tasks out and moves none.** After any requests to a fresh service, and
    as long as every due date begins with a written date, a search answers tasks of the list
    of all tasks in their order, and if its query sets no filter all of them. -/
theorem search_sublist_listed (source : Source) (requests : List (Date × Request)) (today : Date)
    (body : Option (List UInt8)) {text : Option (List UInt8)} {query : Text}
    (hdated : (Desk.served source requests).store.IsDated)
    (hquery : Body.read Body.queryForm text = some (.ok query)) :
    let d := Desk.served source requests
    ∃ tasks found,
      respond source today ⟨"GET".toText, "/tasks".toText, body⟩ d = (.ok (.tasks tasks), d) ∧
      respond source today ⟨"POST".toText, "/search".toText, text⟩ d = (.ok (.tasks found), d) ∧
      found.Sublist tasks ∧ ((Filters.parse query).SetsNothing → found = tasks) := by
  intro d
  have hd : d.store.IsPresentable := (Desk.isHealthy_served source requests).presentable
  obtain ⟨tasks, htasks, -⟩ := hd.allTasks
  obtain ⟨projects, hprojects, -⟩ := hd.allProjects
  have hselect : (Filters.parse query).select today projects tasks =
      tasks.filter ((Filters.parse query).meets today projects) :=
    Filters.select_eq_filter (Store.pairwise_allTasks hdated htasks) _ _ _
  refine ⟨tasks, tasks.filter ((Filters.parse query).meets today projects),
    respond_allTasks hd htasks body, ?_, List.filter_sublist, fun hidle => ?_⟩
  · rw [← hselect]
    exact respond_search hd htasks hprojects hquery
  · exact List.filter_eq_self.2 fun t _ => Filters.meets_of_setsNothing hidle today projects t

theorem search_sublist_listed_errands :
    let source : Source := ⟨Text.digits 4, Text.digits 4⟩
    let today : Date := { year := 2025, month := 3, day := 1 }
    let body (json : String) := some (json.toList.map fun c => c.toNat.toUInt8)
    let post (json : String) : Date × Request :=
      (today, ⟨"POST".toText, "/tasks".toText, body json⟩)
    let d := Desk.served source
      [post "\x7b\"title\":\"milk\",\"due_date\":\"2025-03-02T09:00\"\x7d",
        post "\x7b\"title\":\"nap\"\x7d",
        post "\x7b\"title\":\"rent\",\"due_date\":\"2025-03-01\"\x7d"]
    let text := body "\x7b\"query\":\"project:\"\x7d"
    d.store.ledger.map (·.tasks.map (·.dueDate)) =
        some [some "2025-03-02T09:00".toText, none, some "2025-03-01".toText] ∧
      d.store.IsDated ∧
      Body.read Body.queryForm text = some (.ok "project:".toText) ∧
      ∃ tasks,
        respond source today ⟨"GET".toText, "/tasks".toText, none⟩ d = (.ok (.tasks tasks), d) ∧
        respond source today ⟨"POST".toText, "/search".toText, text⟩ d =
          (.ok (.tasks tasks), d) := by
  intro source today body post d text
  have hdated : d.store.IsDated := by decide +kernel
  have hquery : Body.read Body.queryForm text = some (.ok "project:".toText) := by decide +kernel
  obtain ⟨tasks, found, htasks, hfound, -, hall⟩ :=
    search_sublist_listed source _ today none hdated hquery
  have hsame : found = tasks := hall (Or.inr (by decide +kernel))
  exact ⟨by decide +kernel, hdated, hquery, tasks, htasks, hsame ▸ hfound⟩

end Service
end TaskDesk
