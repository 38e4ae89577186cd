import TaskDesk.Proofs.Service.Careful
import TaskDesk.Proofs.Service.History
import TaskDesk.Proofs.Text.Split

/-!
# Runs of requests

A fresh store is healthy, and every request keeps it so: statements keep integrity, and
endpoints keep the store presentable. So what is stored can always be read, and a request
that is not done changes nothing. Whatever the path of a request holds, the text for the
variable segment can be bound in a statement.

Results:
* `Destination.isEncodable_segment`: the variable segment of a path can be written in UTF-8.
* `Desk.isHealthy_served`: after any requests the store is healthy.
* `Service.reads_answered`: after any requests, lists and searches are answered.
* `Service.store_unchanged`: a request that is not done, or only reads, leaves the store
  as it was.
-/

namespace TaskDesk

theorem Store.isHealthy_fresh : Store.fresh.IsHealthy where
  sound := keeps_run (Moves.climb 3 {}) (fun _ _ h => h.isSound) isSound_empty
  presentable :=
    { ledger := ⟨{}, rfl, by constructor <;> exact fun _ h => by cases h⟩
      settings := rfl
      subtasks := ⟨[], rfl, fun _ h => by cases h⟩ }

/-! ## Where requests go -/

/-- What stands for the variable segment is one of the segments of the path, or empty. -/
theorem Endpoint.eq_nil_or_mem_of_bind? {segments : List Segment} {given : List Text} {t : Text}
    (h : bind? segments given = some t) : t = [] ∨ t ∈ given := by
  fun_induction bind? segments given with
  | case1 => exact .inl (Option.some.inj h).symm
  | case2 => cases h
  | case3 _ _ _ _ ih => exact (ih h).imp_right (List.mem_cons_of_mem _)
  | case4 => cases h
  | case5 => cases h
  | case6 s _ =>
    cases h
    exact .inr List.mem_cons_self
  | case7 => cases h

namespace Destination

theorem isEncodable_decoded (path : Text) : (decoded path).isEncodable = true := by
  refine List.all_eq_true.2 (List.forall_mem_map.2 fun c _ => ?_)
  split
  · assumption
  · rfl

theorem matches?_of_ofRequest {method path segment : Text} {e : Endpoint}
    (h : ofRequest method path = .endpoint e segment) :
    e.matches? (decoded path) = some segment := by
  unfold ofRequest at h
  dsimp only at h
  split at h
  · rename_i known hfound
    cases h
    obtain ⟨e', -, hknown⟩ := List.mem_filterMap.1 (List.mem_of_find?_eq_some hfound)
    obtain ⟨segment', hmatches, heq⟩ := Option.map_eq_some_iff.1 hknown
    cases heq
    exact hmatches
  · split at h
    · split at h <;> cases h
    · split at h
      · cases h
      · split at h <;> cases h

/-- **The variable segment of a path** can be written in UTF-8. -/
theorem isEncodable_segment {method path segment : Text} {e : Endpoint}
    (h : ofRequest method path = .endpoint e segment) : segment.isEncodable = true := by
  have hmatches := matches?_of_ofRequest h
  unfold Endpoint.matches? Endpoint.follows? at hmatches
  split at hmatches
  · rename_i given hsplit
    refine List.all_eq_true.2 fun c hc => ?_
    rcases Endpoint.eq_nil_or_mem_of_bind? hmatches with rfl | hmem
    · cases hc
    · have hpath : c ∈ decoded path :=
        Text.mem_of_mem_split (hsplit ▸ List.mem_cons_of_mem _ hmem) hc
      exact List.all_eq_true.1 (isEncodable_decoded path) c hpath
  · cases hmatches

end Destination

namespace Service

open Work

variable {source : Source} {today : Date} {d : Desk}

theorem ok_ne_failed (c : Contents) : Reply.ok c ≠ .failed :=
  fun h => absurd (show 200 = 500 from congrArg Reply.status h) (by decide)

theorem settle_pure (r : Reply) (d : Desk) : settle (pure r) d = (r.sent, d) := rfl

theorem settle_eq {a : Answering} {r : Reply} {e : Desk} (ha : a.on d = (.ok r, e))
    (hr : r.contents.isSendable = true) : settle a d = (r, e) := by
  rw [settle, ha]
  exact Prod.ext (Reply.sent_of_isSendable hr) rfl

/-- A reply other than a failure was worked out as it was sent. -/
theorem on_ok_of_settle {a : Answering} (h : (settle a d).1 ≠ .failed) :
    a.on d = (.ok (settle a d).1, (settle a d).2) := by
  unfold settle at h ⊢
  split
  · rename_i r e hon
    rw [hon] at h ⊢
    dsimp only at h ⊢
    unfold Reply.sent at h ⊢
    split
    · rfl
    · rename_i hsendable
      rw [if_neg hsendable] at h
      exact absurd rfl h
  · rename_i fault e hon
    rw [hon] at h
    exact absurd rfl h

theorem store_settle (a : Answering) (d : Desk) : (settle a d).2 = (a.on d).2 := by
  unfold settle
  split <;> (rename_i h; rw [h])

theorem Careful.settle {a : Answering} (ha : Careful a) (hd : d.store.IsHealthy) :
    (settle a d).1.status = 200 ∨ (settle a d).2.store = d.store := by
  rcases ha.spares d hd with ⟨r, hr, hstatus, hsendable⟩ | hsame
  · refine .inl ?_
    rw [settle_eq (e := (a.on d).2) (Prod.ext hr rfl) hsendable]
    exact hstatus
  · refine .inr ?_
    rw [store_settle]
    exact hsame

theorem respond_endpoint {request : Request} {e : Endpoint} {segment : Text}
    (h : Destination.ofRequest request.method request.path = .endpoint e segment) :
    respond source today request d = settle (answer source today segment request.body e) d := by
  rw [respond, h]

/-- A request whose reply is worked out without a change, and can be sent. -/
theorem respond_eq {method path : Text} {body : Option (List UInt8)} (e : Endpoint) (segment : Text)
    {r : Reply} (h : Destination.ofRequest method path = .endpoint e segment)
    (hr : r.contents.isSendable = true)
    (hon : (answer source today segment body e).on d = (.ok r, d)) :
    respond source today ⟨method, path, body⟩ d = (r, d) := by
  rw [respond_endpoint h, settle_eq hon hr]

theorem isHealthy_respond (request : Request) (hd : d.store.IsHealthy) :
    (respond source today request d).2.store.IsHealthy where
  sound := Store.keeps_run (steps_respond request d) (fun _ _ h => h.isSound) hd.sound
  presentable := by
    unfold respond
    split
    · rw [store_settle]
      exact (careful_answer _ _ _).keeps d hd.presentable
    · exact hd.presentable
    · exact hd.presentable
    · exact hd.presentable
    · exact hd.presentable

end Service

namespace Desk

/-- A fresh desk after requests, each made on its day. -/
def served (source : Source) (requests : List (Date × Request)) : Desk :=
  fresh.after source (requests.map fun (today, request) => .request today request)

theorem isHealthy_after {source : Source} (requests : List (Date × Request)) {d : Desk}
    (hd : d.store.IsHealthy) :
    (d.after source
      (requests.map fun (today, request) => .request today request)).store.IsHealthy := by
  induction requests generalizing d with
  | nil => exact hd
  | cons first rest ih => exact ih (Service.isHealthy_respond first.2 hd)

theorem isHealthy_served (source : Source) (requests : List (Date × Request)) :
    (served source requests).store.IsHealthy :=
  isHealthy_after requests Store.isHealthy_fresh

end Desk

namespace Service

open Work

/-- **What is stored can be read.** After any requests to a fresh service, whatever their
    methods, paths and bodies, the lists of tasks, tags, projects and folders, the mode
    and every search are answered, and nothing changes. -/
theorem reads_answered (source : Source) (requests : List (Date × Request)) (today : Date)
    (body : Option (List UInt8)) :
    let d := Desk.served source requests
    let get (path : String) := respond source today ⟨"GET".toText, path.toText, body⟩ d
    ∃ tasks tags projects folders mode,
      get "/tasks" = (.ok (.tasks tasks), d) ∧ get "/tags" = (.ok (.texts tags), d) ∧
      get "/projects" = (.ok (.projects projects), d) ∧
      get "/folders" = (.ok (.folders folders), d) ∧
      get "/settings/mode" = (.ok (.mode mode), d) ∧
      ∀ text query, Body.read Body.queryForm text = some (.ok query) →
        respond source today ⟨"POST".toText, "/search".toText, text⟩ d =
          (.ok (.tasks ((Filters.parse query).select today projects tasks)), d) := by
  intro d get
  have hs := (Desk.isHealthy_served source requests).presentable
  obtain ⟨tasks, htasks, htasks'⟩ := hs.allTasks
  obtain ⟨tags, htags, htags'⟩ := hs.allTags
  obtain ⟨projects, hprojects, hprojects'⟩ := hs.allProjects
  obtain ⟨folders, hfolders, hfolders'⟩ := hs.allFolders
  obtain ⟨value, hvalue⟩ := hs.setting? Desk.isEncodable_modeSetting
  have hsent : ∀ ts : List Task, (∀ task ∈ ts, task ∈ tasks) →
      (Contents.tasks ts).isSendable = true := fun ts hts =>
    Json.isSendable_listOf fun task htask => Task.isSendable_toJson (htasks' task (hts task htask))
  refine ⟨tasks, tags, projects, folders, (value.bind Mode.ofName?).getD .search,
    ?_, ?_, ?_, ?_, ?_, fun text query hquery => ?_⟩
  · refine respond_eq .allTasks [] (by decide) (hsent tasks fun _ h => h) ?_
    rw [answer, on_bind, on_query, htasks]
    rfl
  · refine respond_eq .allTags [] (by decide) (Json.isSendable_ofTexts htags') ?_
    rw [answer, on_bind, on_query, htags]
    rfl
  · refine respond_eq .allProjects [] (by decide) (Json.isSendable_listOf fun p hp =>
      Project.isSendable_toJson (hprojects' p hp)) ?_
    rw [answer, on_bind, on_query, hprojects]
    rfl
  · refine respond_eq .allFolders [] (by decide) (Json.isSendable_listOf fun f hf =>
      Folder.isSendable_toJson (hfolders' f hf)) ?_
    rw [answer, on_bind, on_query, hfolders]
    rfl
  · refine respond_eq .getMode [] (by decide) (Contents.isSendable_mode _) ?_
    rw [answer, on_bind, Desk.inputMode, on_bind, on_query, hvalue]
    rfl
  · have hfound (task : Task) (htask : task ∈ (Filters.parse query).select today projects tasks) :=
      ((Filters.mem_select _ _ _ _ _).1 htask).1
    refine respond_eq .search [] (by decide) (hsent _ hfound) ?_
    rw [answer, withBody, hquery]
    dsimp only [checked]
    rw [on_bind, on_query, htasks]
    dsimp only
    rw [on_bind, on_query, hprojects]
    rfl

/-- Bodies with a query are objects like this one. -/
example :
    Body.read Body.queryForm
      (some ("\x7b\"query\":\"milk\"\x7d".toList.map fun c => c.toNat.toUInt8)) =
        some (.ok "milk".toText) := by
  decide +kernel

/-- **Only requests that are done change anything.** After any requests to a fresh
    service, the next one leaves the store as it was if it is answered with a status
    other than 200, also where the service fails, and in any case if it goes to an
    endpoint that only reads. -/
theorem store_unchanged (source : Source) (requests : List (Date × Request)) (today : Date)
    (request : Request) :
    let d := Desk.served source requests
    let answered := respond source today request d
    (answered.1.status ≠ 200 → answered.2.store = d.store) ∧
      ∀ e segment, Destination.ofRequest request.method request.path = .endpoint e segment →
        e.onlyReads = true → answered.2.store = d.store := by
  dsimp only
  constructor
  · intro hstatus
    have hd := Desk.isHealthy_served source requests
    cases hgoes : Destination.ofRequest request.method request.path with
    | endpoint e segment =>
      rw [respond_endpoint hgoes] at hstatus ⊢
      exact ((careful_answer segment request.body e).settle hd).resolve_left hstatus
    | page => simp only [respond, hgoes]
    | wrongMethod => simp only [respond, hgoes]
    | elsewhere => simp only [respond, hgoes]
    | nowhere => simp only [respond, hgoes]
  · intro e segment hgoes he
    rw [respond_endpoint hgoes, store_settle]
    exact Keeps.store_eq (keeps_answer he _ _) _

end Service
end TaskDesk
