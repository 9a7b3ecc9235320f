import Dhtperf.Events
import Dhtperf.Metrics.NodeLatency
import Dhtperf.Metrics.NodeSuccessRate

/-! The node every controller drives: the connected flag, the measurements and the four
`process*Event` functions. What the wrapped DHT does is given from outside: the
answers of `doJoin` and `doGet` and the clock readings around each call. -/
namespace Dhtperf
open Library

structure DhtNode where
  connected : Bool
  entryPointHost : Bytes
  entryPointPort : UInt16
  selfPort : UInt16
  joinLatency : NodeLatency Rat
  leaveLatency : NodeLatency Rat
  putLatency : NodeLatency Rat
  getLatency : NodeLatency Rat
  joinSuccessRate : NodeSuccessRate
  getSuccessRate : NodeSuccessRate

/-- One call of `doJoin`, `doLeave`, `doPut` or `doGet`: its answer, the clock before
and after it, and the clock that `NodeLatency::push` reads. -/
structure Attempt where
  success : Bool
  t0 : Int
  t1 : Int
  pushed : Int
  deriving DecidableEq

namespace DhtNode

def make : DhtNode :=
  ⟨false,[],0,0,.empty,.empty,.empty,.empty,.empty,.empty⟩

/-- The `while (true)` loop: it ends with the first successful attempt. -/
def joinLoop (node : DhtNode) : List Attempt → Option DhtNode
  | [] => none
  | attempt :: attempts =>
    let node := {node with joinLatency := node.joinLatency.push attempt.pushed (attempt.t1 - attempt.t0)}
    if attempt.success then some {node with joinSuccessRate := node.joinSuccessRate.hit}
    else joinLoop {node with joinSuccessRate := node.joinSuccessRate.miss} attempts

/-- No result while the operation has not returned. -/
def processJoinEvent (node : DhtNode) (attempts : List Attempt) : Option (Except Fault DhtNode) :=
  if node.connected then some (throw .exit)
  else (node.joinLoop attempts).map fun node => pure {node with connected := true}

def processLeaveEvent (node : DhtNode) (attempts : List Attempt) : Option (Except Fault DhtNode) :=
  if ¬node.connected then some (throw .exit)
  else attempts.head?.map fun attempt =>
    pure {node with
      leaveLatency := node.leaveLatency.push attempt.pushed (attempt.t1 - attempt.t0)
      connected := false}

def processPutEvent (node : DhtNode) (attempts : List Attempt) : Option (Except Fault DhtNode) :=
  if ¬node.connected then some (pure node)
  else attempts.head?.map fun attempt =>
    pure {node with putLatency := node.putLatency.push attempt.pushed (attempt.t1 - attempt.t0)}

def processGetEvent (node : DhtNode) (attempts : List Attempt) : Option (Except Fault DhtNode) :=
  if ¬node.connected then some (pure node)
  else attempts.head?.map fun attempt =>
    pure {node with
      getSuccessRate := if attempt.success then node.getSuccessRate.hit else node.getSuccessRate.miss
      getLatency := node.getLatency.push attempt.pushed (attempt.t1 - attempt.t0)}

def processEvent : DhtOperation → DhtNode → List Attempt → Option (Except Fault DhtNode)
  | .join => processJoinEvent
  | .leave => processLeaveEvent
  | .put => processPutEvent
  | .get => processGetEvent

/-- The flag the operation asks for: joins want a disconnected node, the others a
connected one. -/
def wanted : DhtOperation → Bool
  | .join => false
  | _ => true

def left : DhtOperation → Bool
  | .leave => false
  | _ => true

theorem processEvent_wanted (op : DhtOperation) (node : DhtNode) (attempts : List Attempt)
    (result : Except Fault DhtNode) (mode : node.connected = wanted op)
    (returned : processEvent op node attempts = some result) :
    ∃ after, result = .ok after ∧ after.connected = left op := by
  cases op with
  | join =>
    simp only [processEvent,processJoinEvent,mode,wanted,Bool.false_eq_true,if_false,
      Option.map_eq_some_iff] at returned
    obtain ⟨after,_,rfl⟩ := returned
    exact ⟨_,rfl,rfl⟩
  | leave =>
    simp only [processEvent,processLeaveEvent,mode,wanted,not_true,if_false,
      Option.map_eq_some_iff] at returned
    obtain ⟨attempt,_,rfl⟩ := returned
    exact ⟨_,rfl,rfl⟩
  | put =>
    simp only [processEvent,processPutEvent,mode,wanted,not_true,if_false,
      Option.map_eq_some_iff] at returned
    obtain ⟨attempt,_,rfl⟩ := returned
    exact ⟨_,rfl,rfl⟩
  | get =>
    simp only [processEvent,processGetEvent,mode,wanted,not_true,if_false,
      Option.map_eq_some_iff] at returned
    obtain ⟨attempt,_,rfl⟩ := returned
    exact ⟨_,rfl,rfl⟩

theorem processEvent_refuses (op : DhtOperation) (kind : op = .join ∨ op = .leave) (node : DhtNode)
    (attempts : List Attempt) (mode : node.connected = left op) :
    processEvent op node attempts = some (.error .exit) := by
  rcases kind with rfl | rfl
  · exact if_pos mode
  · exact if_pos (by simp [mode,left])

end DhtNode
end Dhtperf
