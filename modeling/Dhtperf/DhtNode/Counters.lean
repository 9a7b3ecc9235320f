import Dhtperf.DhtNode

/-! The counters of a node against what has happened to it. The history is counted from the
calls alone; the node agrees with it after every sequence of calls that returns. -/
namespace Dhtperf
open Library

/-- A call of a `process*Event` function, with the results of the calls it makes. -/
structure Call where
  op : DhtOperation
  attempts : List Attempt

/-- What the calls so far amount to. -/
structure History where
  online : Bool
  tries : Nat
  joins : Nat
  leaves : Nat
  puts : Nat
  gets : Nat

namespace History

def start : History := ⟨false,0,0,0,0,0⟩

def tried (attempts : List Attempt) : Nat := (attempts.takeWhile fun attempt => !attempt.success).length + 1

/-- Puts and gets only count while the node is online. -/
def after (history : History) (call : Call) : History :=
  match call.op with
  | .join => {history with online := true, tries := history.tries + tried call.attempts, joins := history.joins + 1}
  | .leave => {history with online := false, leaves := history.leaves + 1}
  | .put => if history.online then {history with puts := history.puts + 1} else history
  | .get => if history.online then {history with gets := history.gets + 1} else history

def of (calls : List Call) : History := calls.foldl after start

end History

namespace DhtNode

/-- One call after another; an error exit or a call that does not return ends it. -/
def processAll (node : DhtNode) : List Call → Option (Except Fault DhtNode)
  | [] => some (pure node)
  | call :: calls =>
    match processEvent call.op node call.attempts with
    | none => none
    | some (.error fault) => some (throw fault)
    | some (.ok after) => processAll after calls

structure Counters (history : History) (node : DhtNode) : Prop where
  online : node.connected = history.online
  tries : node.joinLatency.count = history.tries
  tries_rate : (node.joinLatency.count : Int) = node.joinSuccessRate.hits + node.joinSuccessRate.misses
  joins : node.joinSuccessRate.hits = history.joins
  gets : node.getLatency.count = history.gets
  gets_rate : (node.getLatency.count : Int) = node.getSuccessRate.hits + node.getSuccessRate.misses
  puts : node.putLatency.count = history.puts
  leaves : node.leaveLatency.count = history.leaves
  balance : node.joinSuccessRate.hits - node.leaveLatency.count = 0 ∨
    node.joinSuccessRate.hits - node.leaveLatency.count = 1
  connected_iff : node.connected = true ↔ node.joinSuccessRate.hits - node.leaveLatency.count = 1

@[simp] theorem push_count {D : Type} [Element Int D] (latency : NodeLatency D) (now duration : Int) :
    (latency.push now duration).count = latency.count + 1 := rfl

/-- The loop changes the two join metrics: one measurement and one hit or miss a try. -/
theorem joinLoop_counts (node after : DhtNode) (attempts : List Attempt)
    (joined : node.joinLoop attempts = some after) :
    after = {node with joinLatency := after.joinLatency, joinSuccessRate := after.joinSuccessRate} ∧
      after.joinLatency.count = node.joinLatency.count + History.tried attempts ∧
      after.joinSuccessRate.hits = node.joinSuccessRate.hits + 1 ∧
      after.joinSuccessRate.misses + 1 = node.joinSuccessRate.misses + History.tried attempts := by
  induction attempts generalizing node with
  | nil => cases joined
  | cons attempt attempts ih =>
    by_cases success : attempt.success = true
    · simp only [joinLoop,success,if_true] at joined
      cases joined
      simp [History.tried,success,NodeSuccessRate.hit]
    · have failed : attempt.success = false := Bool.eq_false_iff.mpr success
      simp only [joinLoop,failed,Bool.false_eq_true,if_false] at joined
      obtain ⟨frame,count,hits,misses⟩ := ih _ joined
      have one : History.tried (attempt :: attempts) = History.tried attempts + 1 := by
        simp [History.tried,failed]
      simp only [push_count,NodeSuccessRate.miss] at count hits misses
      refine ⟨frame,?_,hits,?_⟩
      · omega
      · push_cast [one]
        omega

theorem start_counters : Counters .start make where
  online := rfl
  tries := rfl
  tries_rate := rfl
  joins := rfl
  gets := rfl
  gets_rate := rfl
  puts := rfl
  leaves := rfl
  balance := Or.inl rfl
  connected_iff := by decide

/-! What each call can do when it returns. -/

theorem processJoinEvent_ok (node after : DhtNode) (attempts : List Attempt)
    (returned : node.processJoinEvent attempts = some (.ok after)) :
    node.connected = false ∧ ∃ joined, node.joinLoop attempts = some joined ∧ after = {joined with connected := true} := by
  cases mode : node.connected with
  | true => simp [processJoinEvent,mode,throw,throwThe,MonadExceptOf.throw] at returned
  | false =>
    simp only [processJoinEvent,mode,Bool.false_eq_true,if_false,Option.map_eq_some_iff] at returned
    obtain ⟨joined,loop,same⟩ := returned
    cases same
    exact ⟨rfl,joined,loop,rfl⟩

theorem processLeaveEvent_ok (node after : DhtNode) (attempts : List Attempt)
    (returned : node.processLeaveEvent attempts = some (.ok after)) : node.connected = true ∧
      ∃ attempt : Attempt, after = {node with
        leaveLatency := node.leaveLatency.push attempt.pushed (attempt.t1 - attempt.t0), connected := false} := by
  cases mode : node.connected with
  | false => simp [processLeaveEvent,mode,throw,throwThe,MonadExceptOf.throw] at returned
  | true =>
    simp only [processLeaveEvent,mode,not_true,if_false,Option.map_eq_some_iff] at returned
    obtain ⟨attempt,_,same⟩ := returned
    cases same
    exact ⟨rfl,attempt,rfl⟩

theorem processPutEvent_ok (node after : DhtNode) (attempts : List Attempt)
    (returned : node.processPutEvent attempts = some (.ok after)) :
    (node.connected = false ∧ after = node) ∨ (node.connected = true ∧ ∃ attempt : Attempt,
      after = {node with putLatency := node.putLatency.push attempt.pushed (attempt.t1 - attempt.t0)}) := by
  cases mode : node.connected with
  | false =>
    simp only [processPutEvent,mode,Bool.false_eq_true,not_false_eq_true,if_true] at returned
    cases returned
    exact Or.inl ⟨rfl,rfl⟩
  | true =>
    simp only [processPutEvent,mode,not_true,if_false,Option.map_eq_some_iff] at returned
    obtain ⟨attempt,_,same⟩ := returned
    cases same
    exact Or.inr ⟨rfl,attempt,rfl⟩

theorem processGetEvent_ok (node after : DhtNode) (attempts : List Attempt)
    (returned : node.processGetEvent attempts = some (.ok after)) :
    (node.connected = false ∧ after = node) ∨ (node.connected = true ∧ ∃ attempt : Attempt, after = {node with
      getSuccessRate := if attempt.success then node.getSuccessRate.hit else node.getSuccessRate.miss
      getLatency := node.getLatency.push attempt.pushed (attempt.t1 - attempt.t0)}) := by
  cases mode : node.connected with
  | false =>
    simp only [processGetEvent,mode,Bool.false_eq_true,not_false_eq_true,if_true] at returned
    cases returned
    exact Or.inl ⟨rfl,rfl⟩
  | true =>
    simp only [processGetEvent,mode,not_true,if_false,Option.map_eq_some_iff] at returned
    obtain ⟨attempt,_,same⟩ := returned
    cases same
    exact Or.inr ⟨rfl,attempt,rfl⟩

section Calls
variable (history : History) (node after : DhtNode) (attempts : List Attempt) (counters : Counters history node)
include counters

theorem join_counters (returned : node.processJoinEvent attempts = some (.ok after)) :
    Counters (history.after ⟨.join,attempts⟩) after := by
  obtain ⟨online,tries,tries_rate,joins,gets,gets_rate,puts,leaves,balance,connected_iff⟩ := counters
  obtain ⟨offline,joined,loop,rfl⟩ := processJoinEvent_ok node after attempts returned
  obtain ⟨frame,count,hits,misses⟩ := joinLoop_counts node joined attempts loop
  have even : node.joinSuccessRate.hits - node.leaveLatency.count ≠ 1 :=
    fun one => absurd (connected_iff.mpr one) (by simp [offline])
  rw [frame]
  refine ⟨rfl,?_,?_,?_,gets,gets_rate,puts,leaves,?_,?_⟩
  · exact count.trans (by rw [tries]; rfl)
  · change (joined.joinLatency.count : Int) = joined.joinSuccessRate.hits + joined.joinSuccessRate.misses
    omega
  · simp only [History.after,hits,joins]
    push_cast
    rfl
  · simp only
    omega
  · simp only [true_iff]
    omega

theorem leave_counters (returned : node.processLeaveEvent attempts = some (.ok after)) :
    Counters (history.after ⟨.leave,attempts⟩) after := by
  obtain ⟨online,tries,tries_rate,joins,gets,gets_rate,puts,leaves,balance,connected_iff⟩ := counters
  obtain ⟨mode,attempt,rfl⟩ := processLeaveEvent_ok node after attempts returned
  have one := connected_iff.mp mode
  refine ⟨rfl,tries,tries_rate,joins,gets,gets_rate,puts,?_,?_,?_⟩
  · simp only [push_count,History.after,leaves]
  · simp only [push_count]
    omega
  · simp only [push_count,Bool.false_eq_true,false_iff]
    omega

theorem put_counters (returned : node.processPutEvent attempts = some (.ok after)) :
    Counters (history.after ⟨.put,attempts⟩) after := by
  obtain ⟨mode,rfl⟩ | ⟨mode,attempt,rfl⟩ := processPutEvent_ok node after attempts returned
  · have idle : history.after ⟨.put,attempts⟩ = history := if_neg (by simp [← counters.online,mode])
    rw [idle]
    exact counters
  · obtain ⟨online,tries,tries_rate,joins,gets,gets_rate,puts,leaves,balance,connected_iff⟩ := counters
    have counted : history.after ⟨.put,attempts⟩ = {history with puts := history.puts + 1} := if_pos (by rw [← online,mode])
    rw [counted]
    exact ⟨online,tries,tries_rate,joins,gets,gets_rate,congrArg (· + 1) puts,leaves,balance,connected_iff⟩

theorem get_counters (returned : node.processGetEvent attempts = some (.ok after)) :
    Counters (history.after ⟨.get,attempts⟩) after := by
  obtain ⟨mode,rfl⟩ | ⟨mode,attempt,rfl⟩ := processGetEvent_ok node after attempts returned
  · have idle : history.after ⟨.get,attempts⟩ = history := if_neg (by simp [← counters.online,mode])
    rw [idle]
    exact counters
  · obtain ⟨online,tries,tries_rate,joins,gets,gets_rate,puts,leaves,balance,connected_iff⟩ := counters
    have counted : history.after ⟨.get,attempts⟩ = {history with gets := history.gets + 1} := if_pos (by rw [← online,mode])
    rw [counted]
    refine ⟨online,tries,tries_rate,joins,congrArg (· + 1) gets,?_,puts,leaves,balance,connected_iff⟩
    simp only [push_count]
    cases attempt.success with
    | true =>
      simp only [if_true,NodeSuccessRate.hit]
      omega
    | false =>
      simp only [Bool.false_eq_true,if_false,NodeSuccessRate.miss]
      omega

end Calls

theorem processEvent_counters (history : History) (node after : DhtNode) (call : Call)
    (counters : Counters history node) (returned : processEvent call.op node call.attempts = some (.ok after)) :
    Counters (history.after call) after := by
  obtain ⟨op,attempts⟩ := call
  cases op with
  | join => exact join_counters history node after attempts counters returned
  | leave => exact leave_counters history node after attempts counters returned
  | put => exact put_counters history node after attempts counters returned
  | get => exact get_counters history node after attempts counters returned

theorem processAll_counters (history : History) (node after : DhtNode) (calls : List Call)
    (counters : Counters history node) (returned : node.processAll calls = some (.ok after)) :
    Counters (calls.foldl History.after history) after := by
  induction calls generalizing history node with
  | nil =>
    cases returned
    exact counters
  | cons call calls ih =>
    unfold processAll at returned
    split at returned
    next => cases returned
    next => cases returned
    next middle here =>
      exact ih (history.after call) middle (processEvent_counters history node middle call counters here) returned

/-- The counters of a node agree with the calls it has answered. -/
theorem counters_agree (calls : List Call) (node : DhtNode) (returned : make.processAll calls = some (.ok node)) :
    Counters (.of calls) node :=
  processAll_counters .start make node calls start_counters returned

def oneVisit : List Call := [
  ⟨.join,[⟨false,0,3,3⟩,⟨true,10,14,14⟩]⟩,⟨.get,[⟨false,20,21,21⟩]⟩,⟨.leave,[⟨true,30,31,31⟩]⟩,⟨.put,[]⟩]

theorem oneVisit_counters : ∃ node, make.processAll oneVisit = some (.ok node) ∧ Counters ⟨false,2,1,1,0,1⟩ node :=
  ⟨_,rfl,counters_agree oneVisit _ rfl⟩

end DhtNode
end Dhtperf
