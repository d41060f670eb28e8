import SorobanPay.Backend.Wire

/-!
# The stream of events

The indexers ask the RPC for the events after a cursor, which is the identifier of the last event
they have handled. The RPC returns the events strictly after the cursor, in the order of the
ledger.

## Main definitions

* `eventsAfter`: the events after a cursor.
* `WellIdentified`: the events of a stream are told apart by their identifiers.

## Main results

* `WellIdentified.eventsAfter_getLast`: the events after the last one of a page are those that
  follow the page.
-/

set_option autoImplicit false

namespace SorobanPay

/-- The events of a stream strictly after a cursor. Without a cursor the RPC starts at the oldest
event. -/
def eventsAfter (stream : List EventResponse) (cursor : String) : List EventResponse :=
  if cursor = "" then stream else (stream.dropWhile (·.id ≠ cursor)).tail

/-- What is assumed of a stream: its events are told apart by identifiers that are not empty. -/
structure WellIdentified (stream : List EventResponse) : Prop where
  nodup : (stream.map (·.id)).Nodup
  ne_empty : ∀ event ∈ stream, event.id ≠ ""

namespace WellIdentified

variable {stream pre page post : List EventResponse} {event : EventResponse}

theorem eventsAfter_eq (h : WellIdentified stream) (hsplit : stream = pre ++ event :: post) :
    eventsAfter stream event.id = post := by
  have hids := h.nodup
  rw [eventsAfter, if_neg (h.ne_empty event (by simp [hsplit]))]
  rw [hsplit, List.map_append, List.map_cons, List.nodup_append] at hids
  have hpre : ∀ e ∈ pre, e.id ≠ event.id := fun e he =>
    hids.2.2 _ (List.mem_map_of_mem he) _ List.mem_cons_self
  rw [hsplit, List.dropWhile_append_of_pos (by simpa using hpre)]
  simp

theorem eventsAfter_getLast (h : WellIdentified stream) (hpage : page ≠ [])
    (hsplit : stream = pre ++ (page ++ post)) :
    eventsAfter stream (page.getLast hpage).id = post := by
  have hlast : stream = (pre ++ page.dropLast) ++ page.getLast hpage :: post :=
    calc stream = pre ++ ((page.dropLast ++ [page.getLast hpage]) ++ post) := by
          rw [List.dropLast_concat_getLast hpage, hsplit]
      _ = (pre ++ page.dropLast) ++ page.getLast hpage :: post := by simp
  exact h.eventsAfter_eq hlast

/-- An event of the stream is in one part of it only. -/
theorem notMem_of_mem (h : WellIdentified stream) (hsplit : stream = pre ++ post)
    (hevent : event ∈ pre) : event ∉ post := by
  have hids := h.nodup
  rw [hsplit, List.map_append, List.nodup_append] at hids
  exact fun hpost =>
    hids.2.2 _ (List.mem_map_of_mem hevent) _ (List.mem_map_of_mem hpost) rfl

end WellIdentified

end SorobanPay
