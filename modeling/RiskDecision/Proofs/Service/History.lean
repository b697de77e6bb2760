import RiskDecision.Proofs.Catalog.Writes
import RiskDecision.Proofs.Service.Run

/-!
# Histories of a service

Whoever holds a service can also write to its store directly, so a history is made of calls and of
writes that go past the service, in any order. What an event gives rise to may depend on the state
in which it happens; `along` collects it over a history. In particular the store at the end of a
history is what all writes make of the store at its beginning, those of the calls included
(`store_afterEvents`), so which catalog is in force is a question about writes only.
-/

namespace RiskDecision.Service

/-- What happens to a service. -/
inductive Event
  | call (c : Call)
  /-- A write to the store that goes past the service. -/
  | write (w : Write)

/-- The service after an event. -/
def afterEvent (s : Service) : Event → Service
  | .call call => s.after call.operation
  | .write w => { s with store := (s.store.perform w).2 }

/-- The service at the end of a history. -/
def afterEvents (s : Service) (events : List Event) : Service := events.foldl afterEvent s

/-- All that the events of a history give rise to, each in the state in which it happens. -/
def along {α : Type} (what : Service → Event → List α) (s : Service) : List Event → List α
  | [] => []
  | e :: rest => what s e ++ along what (s.afterEvent e) rest

/-- The writes that an event makes in the store. -/
def writes (s : Service) : Event → List Write
  | .write w => [w]
  | .call call =>
    if s.closed then []
    else if call.isShutdown then [.clear]
    else call.loads.map fun c => .publish (s.withDomainPolicy c.1)

variable {s : Service}

/-- The settings stay as they are, whatever happens. -/
theorem settings_afterEvent (s : Service) (e : Event) : (s.afterEvent e).settings = s.settings := by
  cases e with
  | write w => rfl
  | call call => exact settings_after s call

theorem settings_afterEvents (s : Service) (events : List Event) :
    (s.afterEvents events).settings = s.settings := by
  induction events generalizing s with
  | nil => rfl
  | cons e rest ih => exact (ih (s.afterEvent e)).trans (settings_afterEvent s e)

/-- What a history gives rise to comes from one of its events. -/
theorem exists_of_mem_along {α : Type} {what : Service → Event → List α} {events : List Event}
    {a : α} (h : a ∈ s.along what events) : ∃ s', ∃ e ∈ events, a ∈ what s' e := by
  induction events generalizing s with
  | nil => exact absurd h List.not_mem_nil
  | cons e rest ih =>
      rcases List.mem_append.mp h with h | h
      · exact ⟨s, e, List.mem_cons_self, h⟩
      · obtain ⟨s', e', he', ha⟩ := ih h
        exact ⟨s', e', List.mem_cons_of_mem e he', ha⟩

theorem publishEach_eq_afterWrites (store : Store) (catalogs : List Catalog) :
    store.publishEach catalogs = store.afterWrites (catalogs.map .publish) := by
  rw [Store.afterWrites, List.foldl_map]
  rfl

/-- **ONE EVENT** changes the store by the writes that it makes. -/
theorem store_afterEvent (s : Service) (e : Event) :
    (s.afterEvent e).store = s.store.afterWrites (s.writes e) := by
  cases e with
  | write w => rfl
  | call call =>
      show (s.after call.operation).store = _
      cases hclosed : s.closed with
      | true =>
          rw [after_of_closed hclosed, writes, hclosed]
          rfl
      | false =>
          cases hshutdown : call.isShutdown with
          | true =>
              obtain rfl := Call.eq_shutdown hshutdown
              rw [after_shutdown, shutdown, writes, hclosed]
              rfl
          | false =>
              have hwrites : s.writes (.call call)
                  = ((call.loads.map Prod.fst).map s.withDomainPolicy).map .publish := by
                rw [writes, hclosed, hshutdown, List.map_map, List.map_map]
                rfl
              rw [store_after_of_open hclosed hshutdown, hwrites, publishEach_eq_afterWrites]

/-- **A HISTORY** changes the store by all writes of its events. -/
theorem store_afterEvents (s : Service) (events : List Event) :
    (s.afterEvents events).store = s.store.afterWrites (s.along writes events) := by
  induction events generalizing s with
  | nil => rfl
  | cons e rest ih =>
      show ((s.afterEvent e).afterEvents rest).store = _
      rw [ih, store_afterEvent, along, Store.afterWrites, Store.afterWrites, Store.afterWrites,
        List.foldl_append]

/-- What is found in the store of a service is in force by the writes of its history. -/
theorem get?_afterEvents_start (settings : Settings) (events : List Event) (spelling : String)
    (c : Catalog) :
    ((start settings).afterEvents events).store.get? spelling = some c ↔
      InForce ((start settings).along writes events) (.ofText spelling) c := by
  have hempty : (start settings).store.get? spelling ≠ some c := nofun
  rw [store_afterEvents, Store.get?_afterWrites]
  simp only [hempty, false_and, or_false]

/-- Calls alone make a history that is a run. -/
theorem afterEvents_map_call (s : Service) (calls : List Call) :
    s.afterEvents (calls.map .call) = s.afterCalls calls := by
  rw [afterEvents, List.foldl_map]
  rfl

end RiskDecision.Service
