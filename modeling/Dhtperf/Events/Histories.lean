import Dhtperf.Events

/-! Histories of an event queue: any sequence of pushes and pops from the empty queue, with
the pushed events and the pops so far. -/
namespace Dhtperf
open Library

namespace EventQueue
variable {op : DhtOperation}

inductive Call (op : DhtOperation)
  | push (event : DhtEvent op)
  | popEvents (currentTime : TimeUnit)

def Call.event : Call op → Option (DhtEvent op)
  | .push event => some event
  | .popEvents _ => none

structure Pop (op : DhtOperation) where
  before : EventQueue op
  currentTime : TimeUnit
  events : List (DhtEvent op)
  after : EventQueue op

structure History (op : DhtOperation) where
  queue : EventQueue op
  pops : List (Pop op)

def History.returned (history : History op) : List (DhtEvent op) := history.pops.flatMap (·.events)

/-- A pop returns the events that are due, in the order of their times, and keeps the others. -/
structure Pop.Exact (pop : Pop op) : Prop where
  due : pop.events.Perm (pop.before.elements.filter (·.time ≤ pop.currentTime))
  sorted : pop.events.Pairwise (·.time ≤ ·.time)
  left : pop.after.elements.Perm (pop.before.elements.filter (pop.currentTime < ·.time))

variable [HeapDiscipline (DhtEvent op) DhtEvent.ticks]

def History.call (history : History op) : Call op → History op
  | .push event => {history with queue := history.queue.push event}
  | .popEvents currentTime =>
    let (events,queue) := history.queue.popEvents currentTime
    ⟨queue,history.pops ++ [⟨history.queue,currentTime,events,queue⟩]⟩

def history (calls : List (Call op)) : History op := calls.foldl History.call ⟨PriorityQueue.empty,[]⟩

theorem popEvents_exact (queue : EventQueue op) (currentTime : TimeUnit) :
    Pop.Exact ⟨queue,currentTime,(queue.popEvents currentTime).1,(queue.popEvents currentTime).2⟩ := by
  obtain ⟨due,left⟩ := PriorityQueue.popUpTo_filter queue currentTime.toNat
  refine ⟨?_,?_,?_⟩
  · simp only [UInt32.le_iff_toNat_le]
    exact due
  · apply (PriorityQueue.popUpTo_sorted queue currentTime.toNat).imp
    exact fun below => UInt32.le_iff_toNat_le.mpr below
  · simp only [UInt32.lt_iff_toNat_lt]
    exact left

/-- The events that were returned and those still queued are the events that were pushed. -/
structure History.Kept (history : History op) (calls : List (Call op)) : Prop where
  pops : ∀ pop ∈ history.pops, pop.Exact
  events : (history.returned ++ history.queue.elements).Perm (calls.filterMap Call.event)

theorem History.Kept.call (history : History op) (calls : List (Call op)) (call : Call op)
    (kept : history.Kept calls) : (history.call call).Kept (calls ++ [call]) := by
  cases call with
  | push event =>
    refine ⟨kept.pops,?_⟩
    have pushed := (PriorityQueue.push_perm history.queue event).append_left history.returned
    have moved := pushed.trans List.perm_middle
    rw [List.filterMap_append]
    exact moved.trans (((kept.events.cons event).trans (List.perm_append_singleton _ _).symm))
  | popEvents currentTime =>
    have exact_ := popEvents_exact history.queue currentTime
    refine ⟨fun pop member => ?_,?_⟩
    · rcases List.mem_append.mp member with old | new
      · exact kept.pops pop old
      · cases List.mem_singleton.mp new
        exact exact_
    · have popped := (PriorityQueue.popUpTo_perm history.queue currentTime.toNat).append_left history.returned
      have silent : ([.popEvents currentTime] : List (Call op)).filterMap Call.event = [] := rfl
      rw [List.filterMap_append,silent,List.append_nil]
      simpa [History.call,History.returned,popEvents] using popped.trans kept.events

/-- Over any history no event is lost, doubled, returned early or returned late. -/
theorem history_kept (calls : List (Call op)) : (history calls).Kept calls := by
  induction calls using List.reverseRecOn with
  | nil => exact ⟨by simp [history],List.Perm.refl _⟩
  | append_singleton calls call ih =>
    have step := ih.call (history calls) calls call
    rwa [history,List.foldl_append]

end EventQueue
end Dhtperf
