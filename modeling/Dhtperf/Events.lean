import Dhtperf.Basic
import Dhtperf.Library.PriorityQueue
import Mathlib.Order.Defs.LinearOrder
import Mathlib.Data.Nat.Basic

/-! The four event classes and the queue every profile keeps its events in. -/
namespace Dhtperf
open Library

def Payload : DhtOperation → Type
  | .join => Unit
  | .leave => Unit
  | .put => Bytes × Bytes
  | .get => Bytes

instance (op : DhtOperation) : DecidableEq (Payload op) :=
  match op with
  | .join => inferInstanceAs (DecidableEq Unit)
  | .leave => inferInstanceAs (DecidableEq Unit)
  | .put => inferInstanceAs (DecidableEq (Bytes × Bytes))
  | .get => inferInstanceAs (DecidableEq Bytes)

structure DhtEvent (op : DhtOperation) where
  time : TimeUnit
  payload : Payload op
  deriving DecidableEq

abbrev DhtEvent.ticks {op : DhtOperation} (event : DhtEvent op) : Nat := event.time.toNat

abbrev EventQueue (op : DhtOperation) := PriorityQueue (DhtEvent op) DhtEvent.ticks

abbrev StdHeap := ∀ op : DhtOperation, HeapDiscipline (DhtEvent op) DhtEvent.ticks

@[reducible] def plainHeap : StdHeap := fun _ => earliestLeast DhtEvent.ticks

namespace EventQueue
variable {op : DhtOperation}

/-- Zero stands for an empty queue. -/
def getNextEventTime (queue : EventQueue op) : TimeUnit :=
  match queue.top with
  | none => 0
  | some event => event.time

theorem getNextEventTime_zero (queue : EventQueue op) (zero : getNextEventTime queue = 0) :
    queue.elements = [] ∨ ∃ event ∈ queue.elements, event.time = 0 := by
  unfold getNextEventTime at zero
  split at zero
  next empty => exact Or.inl ((PriorityQueue.top_eq_none queue).mp empty)
  next event found => exact Or.inr ⟨event,(PriorityQueue.top_least queue event found).1,zero⟩

theorem getNextEventTime_empty (queue : EventQueue op) (empty : queue.elements = []) : getNextEventTime queue = 0 := by
  simp [getNextEventTime,(PriorityQueue.top_eq_none queue).mpr empty]

theorem empty_of_zero (queue : EventQueue op) (positive : ∀ event ∈ queue.elements, event.time ≠ 0)
    (zero : getNextEventTime queue = 0) : queue.elements = [] := by
  rcases getNextEventTime_zero queue zero with empty | ⟨event,queued,late⟩
  · exact empty
  · exact absurd late (positive event queued)

theorem getNextEventTime_le (queue : EventQueue op) (event : DhtEvent op)
    (queued : event ∈ queue.elements) : getNextEventTime queue ≤ event.time := by
  unfold getNextEventTime
  split
  next empty => simp [(PriorityQueue.top_eq_none queue).mp empty] at queued
  next first found =>
    exact UInt32.le_iff_toNat_le.mpr ((PriorityQueue.top_least queue first found).2 event queued)

theorem getNextEventTime_queued (queue : EventQueue op) (nonzero : getNextEventTime queue ≠ 0) :
    ∃ event ∈ queue.elements, event.time = getNextEventTime queue := by
  unfold getNextEventTime at nonzero ⊢
  split at nonzero
  next => contradiction
  next event found => exact ⟨event,(PriorityQueue.top_least queue event found).1,by simp⟩

variable [HeapDiscipline (DhtEvent op) DhtEvent.ticks]

def popEvents (queue : EventQueue op) (currentTime : TimeUnit) : List (DhtEvent op) × EventQueue op :=
  queue.popUpTo currentTime.toNat

end EventQueue
end Dhtperf
