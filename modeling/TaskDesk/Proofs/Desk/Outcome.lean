import TaskDesk.Desk.Basic

/-!
# Outcomes of work

What the outcome of work says about its parts: where work in two parts has an
outcome both parts have one, and where it fails the first part fails or the second
one does.

Results:
* `bind_on_ok`, `bind_on_error`: the outcome of work in two parts.
* `change_on_ok`, `execute_on_ok`, `query_on_ok`, `transaction_on_ok`: where the
  single parts of work have an outcome.
* `Succeeds`, `succeeds_bind` and companions: when work has an outcome at all.
-/

namespace TaskDesk
namespace Work

variable {α β : Type} {d d' : Desk} {fault : Fault}

theorem bind_on_ok {a : Work α} {f : α → Work β} {y : β} (h : (a >>= f).on d = (.ok y, d')) :
    ∃ x mid, a.on d = (.ok x, mid) ∧ (f x).on mid = (.ok y, d') := by
  rw [on_bind] at h
  split at h
  · rename_i x mid hx
    exact ⟨x, mid, hx, h⟩
  · cases h

theorem bind_on_error {a : Work α} {f : α → Work β} (h : (a >>= f).on d = (.error fault, d')) :
    a.on d = (.error fault, d') ∨
      ∃ x mid, a.on d = (.ok x, mid) ∧ (f x).on mid = (.error fault, d') := by
  rw [on_bind] at h
  split at h
  · rename_i x mid hx
    exact .inr ⟨x, mid, hx, h⟩
  · rename_i hx
    cases h
    exact .inl hx

theorem pure_on_ne_error {x : α} : (pure x : Work α).on d ≠ (.error fault, d') :=
  fun h => by cases h

theorem query_on_ok {read : Store → Except Fault α} {x : α} (h : (query read).on d = (.ok x, d')) :
    read d.store = .ok x ∧ d' = d := by
  rw [on_query] at h
  cases hr : read d.store with
  | ok y => rw [hr] at h; cases h; exact ⟨rfl, rfl⟩
  | error f => rw [hr] at h; cases h

theorem query_on_error {read : Store → Except Fault α}
    (h : (query read).on d = (.error fault, d')) : read d.store = .error fault ∧ d' = d := by
  rw [on_query] at h
  cases hr : read d.store with
  | ok y => rw [hr] at h; cases h
  | error f => rw [hr] at h; cases h; exact ⟨rfl, rfl⟩

theorem change_on_ok {write : Store → Except Fault (α × Store)} {x : α}
    (h : (change write).on d = (.ok x, d')) : write d.store = .ok (x, d'.store) := by
  rw [on_change] at h
  split at h
  · rename_i hw
    cases h
    exact hw
  · cases h

theorem change_on_error {write : Store → Except Fault (α × Store)}
    (h : (change write).on d = (.error fault, d')) : d' = d := by
  rw [on_change] at h
  split at h
  · cases h
  · cases h; rfl

/-- After a statement that succeeded only the store is another one. -/
theorem exists_of_execute_on_ok {write : Store → Except Fault Store} {u : Unit}
    (h : (execute write).on d = (.ok u, d')) :
    ∃ s, write d.store = .ok s ∧ d' = { d with store := s } := by
  rw [on_execute] at h
  split at h
  · rename_i s hw
    cases h
    exact ⟨s, hw, rfl⟩
  · cases h

theorem execute_on_ok {write : Store → Except Fault Store} {u : Unit}
    (h : (execute write).on d = (.ok u, d')) : write d.store = .ok d'.store := by
  obtain ⟨s, hw, rfl⟩ := exists_of_execute_on_ok h
  exact hw

theorem transaction_on_ok {a : Work α} {x : α} (h : (transaction a).on d = (.ok x, d')) :
    a.on d = (.ok x, d') := by
  rw [on_transaction] at h
  split at h
  · rename_i hx
    rw [hx, h]
  · cases h

theorem transaction_on_of_ok {a : Work α} {x : α} (h : a.on d = (.ok x, d')) :
    (transaction a).on d = (.ok x, d') := by
  rw [on_transaction, h]

/-! ## Success -/

/-- The work has an outcome at the desk. -/
def Succeeds (a : Work α) (d : Desk) : Prop := ∃ x d', a.on d = (.ok x, d')

theorem succeeds_of_on {a : Work α} {x : α} (h : a.on d = (.ok x, d')) : a.Succeeds d :=
  ⟨x, d', h⟩

theorem Succeeds.of_eq {a b : Work α} (h : a.on d = b.on d) (hb : b.Succeeds d) : a.Succeeds d := by
  obtain ⟨x, d', hb⟩ := hb
  exact ⟨x, d', h.trans hb⟩

theorem succeeds_pure (x : α) : (pure x : Work α).Succeeds d := ⟨x, d, rfl⟩

theorem bind_on_of_ok {a : Work α} {f : α → Work β} {x : α} (h : a.on d = (.ok x, d')) :
    (a >>= f).on d = (f x).on d' := by
  rw [on_bind, h]

theorem succeeds_bind_of_ok {a : Work α} {f : α → Work β} {x : α} (h : a.on d = (.ok x, d')) :
    (a >>= f).Succeeds d ↔ (f x).Succeeds d' := by
  rw [Succeeds, Succeeds, bind_on_of_ok h]

theorem Succeeds.bind {a : Work α} {f : α → Work β} (ha : a.Succeeds d)
    (hf : ∀ {x d'}, a.on d = (.ok x, d') → (f x).Succeeds d') : (a >>= f).Succeeds d := by
  obtain ⟨x, d', h⟩ := ha
  exact (succeeds_bind_of_ok h).2 (hf h)

theorem execute_on_of_ok {write : Store → Except Fault Store} {s : Store}
    (h : write d.store = .ok s) : (execute write).on d = (.ok (), { d with store := s }) := by
  rw [on_execute, h]

theorem succeeds_execute {write : Store → Except Fault Store} {s : Store}
    (h : write d.store = .ok s) : (execute write).Succeeds d :=
  succeeds_of_on (execute_on_of_ok h)

theorem succeeds_change {write : Store → Except Fault (α × Store)} {x : α} {s : Store}
    (h : write d.store = .ok (x, s)) : (change write).Succeeds d := by
  refine ⟨x, { d with store := s }, ?_⟩
  rw [on_change, h]

theorem Succeeds.transaction {a : Work α} (ha : a.Succeeds d) : (transaction a).Succeeds d := by
  obtain ⟨x, d', h⟩ := ha
  exact ⟨x, d', transaction_on_of_ok h⟩

theorem not_succeeds_iff {a : Work α} : ¬ a.Succeeds d ↔ ∃ fault d', a.on d = (.error fault, d') := by
  constructor
  · intro h
    cases hon : a.on d with
    | mk outcome after =>
      cases outcome with
      | ok x => exact absurd (succeeds_of_on hon) h
      | error fault => exact ⟨fault, after, rfl⟩
  · rintro ⟨fault, d', h⟩ ⟨x, e, h'⟩
    rw [h] at h'
    cases h'

end Work
end TaskDesk
