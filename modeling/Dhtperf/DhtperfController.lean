import Dhtperf.DhtNode
import Dhtperf.Profile
import Mathlib.Logic.Function.Basic
import Mathlib.Logic.Relation

/-! The controller's main loop. `DhtperfController::start` is a machine whose steps run
from one reading of the clock to the next; the readings, the answers of the DHT and
the random draws come from outside. Clock readings are microseconds since the timer
of the run was set. -/
namespace Dhtperf
open Library

structure ControllerWorkloadProfile where
  profile : (op : DhtOperation) → Profile op
  duration : TimeUnit

/-- The minimum of two event times where zero stands for no event. -/
def earlier (ret aux : TimeUnit) : TimeUnit :=
  if ret = 0 ∨ (aux < ret ∧ aux ≠ 0) then aux else ret

structure Polled where
  profile : (op : DhtOperation) → Profile op
  time : TimeUnit
  pushed : (op : DhtOperation) → List (DhtEvent op)
  draws : Draws

def modeOperations (connected : Bool) : List DhtOperation :=
  if connected then [.put,.get,.leave] else [.join]

namespace ControllerWorkloadProfile
variable [heap : StdHeap]

def getNextEventTime (workload : ControllerWorkloadProfile) (currentTime : TimeUnit)
    (connected : Bool) (draws : Draws) : Except Fault Polled :=
  if connected then do
    let leave ← (workload.profile .leave).scheduleNextEvent currentTime draws
    let put ← (workload.profile .put).scheduleNextEvent currentTime leave.draws
    let get ← (workload.profile .get).scheduleNextEvent currentTime put.draws
    pure {
      profile := fun
        | .join => workload.profile .join
        | .leave => leave.profile
        | .put => put.profile
        | .get => get.profile
      time := earlier (earlier leave.time put.time) get.time
      pushed := fun
        | .join => []
        | .leave => leave.pushed
        | .put => put.pushed
        | .get => get.pushed
      draws := get.draws }
  else do
    let join ← (workload.profile .join).scheduleNextEvent currentTime draws
    pure {
      profile := fun
        | .join => join.profile
        | .leave => workload.profile .leave
        | .put => workload.profile .put
        | .get => workload.profile .get
      time := join.time
      pushed := fun
        | .join => join.pushed
        | .leave => []
        | .put => []
        | .get => []
      draws := join.draws }

end ControllerWorkloadProfile

/-- Why `start` is over: it returned, an event met the wrong mode, or a profile failed. -/
inductive Ending
  | returned
  | wrongMode
  | fault (fault : Fault)
  deriving DecidableEq

/-- Where the loop stands. A batch holds the events popped at one time and not yet
run: puts first, then gets, then leaves; or joins alone. -/
inductive Pc
  | head
  | batch (poppedAt : TimeUnit) (pending : (op : DhtOperation) → List (DhtEvent op))
  | sleeping (toWait : TimeUnit)
  | ended (ending : Ending)

/-- A record of a run event: the time it was popped at and the flag it was run under. -/
structure Executed (op : DhtOperation) where
  event : DhtEvent op
  poppedAt : TimeUnit
  connected : Bool

/-- The variables of `start` and its history: the last clock reading, everything the
profiles have pushed and everything that was run. -/
structure Loop where
  workload : ControllerWorkloadProfile
  dhtNode : DhtNode
  draws : Draws
  remaining : Int
  elapsed : TimeUnit
  nextEvent : TimeUnit
  pc : Pc
  clock : Nat
  pushed : (op : DhtOperation) → List (DhtEvent op)
  executed : (op : DhtOperation) → List (Executed op)

namespace Loop

def profile (s : Loop) (op : DhtOperation) : Profile op := s.workload.profile op

def queued (s : Loop) (op : DhtOperation) : List (DhtEvent op) := (s.profile op).eventQueue.elements

def duration (s : Loop) : TimeUnit := s.workload.duration

/-- `remaining.total_seconds()` truncates towards zero. -/
def totalSeconds (microseconds : Int) : Int := microseconds.tdiv 1000000

/-- The first two lines of `DHTPERF_CHECK_DONE`. -/
def readClock (s : Loop) (reading : Nat) : Loop :=
  let remaining := totalSeconds ((s.duration.toNat : Int) * 1000000 - reading)
  {s with
    clock := reading
    remaining := remaining
    elapsed := UInt32.ofInt ((s.duration.toNat : Int) - remaining)}

/-- The condition of `DHTPERF_CHECK_DONE`. -/
def timeUp (s : Loop) : Bool := s.remaining < 0 || s.elapsed ≥ s.duration

/-- The code after the event branch: `continue`, or a wait. -/
def afterEvents (s : Loop) : Loop :=
  if s.nextEvent ≠ 0 then
    if s.nextEvent > s.elapsed then {s with pc := .sleeping (s.nextEvent - s.elapsed)}
    else {s with pc := .head}
  else {s with pc := .sleeping (UInt32.ofInt s.remaining)}

variable [heap : StdHeap]

def popBatch (s : Loop) : Loop :=
  let mode := modeOperations s.dhtNode.connected
  {s with
    workload := {s.workload with
      profile := fun op => if op ∈ mode then ((s.profile op).getEvents s.elapsed).2 else s.profile op}
    pc := .batch s.elapsed fun op => if op ∈ mode then ((s.profile op).getEvents s.elapsed).1 else []}

omit heap in
/-- A poll gives the next event, unless it lies behind the end of the run. -/
def refresh (s : Loop) (polled : Polled) : Loop :=
  {s with
    workload := {s.workload with profile := polled.profile}
    draws := polled.draws
    pushed := fun op => s.pushed op ++ polled.pushed op
    nextEvent := if polled.time > s.duration then 0 else polled.time}

def poll (s : Loop) : Loop :=
  match s.workload.getNextEventTime s.elapsed s.dhtNode.connected s.draws with
  | .error fault => {s with pc := .ended (.fault fault)}
  | .ok polled =>
    let s := s.refresh polled
    if s.elapsed ≥ s.nextEvent ∧ s.nextEvent ≠ 0 then s.popBatch else s.afterEvents

/-- The head of the loop: the check, then the pass. -/
def pass (s : Loop) (reading : Nat) : Loop :=
  let s := s.readClock reading
  if s.timeUp then {s with pc := .ended .returned} else s.poll

omit heap in
def afterEvent (s : Loop) (poppedAt : TimeUnit) (pending : (op : DhtOperation) → List (DhtEvent op))
    {op : DhtOperation} (event : DhtEvent op) (rest : List (DhtEvent op))
    (result : Except Fault DhtNode) (reading : Nat) : Loop :=
  match result with
  | .error _ => {s with pc := .ended .wrongMode}
  | .ok node =>
    let s : Loop := {s with
      dhtNode := node
      executed := Function.update s.executed op
        (s.executed op ++ [(⟨event,poppedAt,s.dhtNode.connected⟩ : Executed op)])}
    let s := s.readClock reading
    if s.timeUp then {s with pc := .ended .returned}
    else {s with pc := .batch poppedAt (Function.update pending op rest)}

/-- The order of the `BOOST_FOREACH` loops. -/
def turn : DhtOperation → Nat
  | .put => 0
  | .get => 1
  | .leave => 2
  | .join => 3

/-- One step, under a clock that never goes backwards. -/
inductive Step : Loop → Loop → Prop
  | pass (s : Loop) (reading : Nat) (here : s.pc = .head) (later : s.clock ≤ reading) :
      Step s (s.pass reading)
  | event (s : Loop) (poppedAt : TimeUnit) (pending : (op : DhtOperation) → List (DhtEvent op))
      (op : DhtOperation) (event : DhtEvent op) (rest : List (DhtEvent op))
      (attempts : List Attempt) (result : Except Fault DhtNode) (reading : Nat)
      (here : s.pc = .batch poppedAt pending)
      (first : ∀ other, turn other < turn op → pending other = [])
      (next : pending op = event :: rest)
      (returned : DhtNode.processEvent op s.dhtNode attempts = some result)
      (later : s.clock ≤ reading) :
      Step s (s.afterEvent poppedAt pending event rest result reading)
  | batchDone (s : Loop) (poppedAt : TimeUnit) (pending : (op : DhtOperation) → List (DhtEvent op))
      (here : s.pc = .batch poppedAt pending) (empty : ∀ op, pending op = []) :
      Step s s.afterEvents
  | wake (s : Loop) (toWait : TimeUnit) (reading : Nat) (here : s.pc = .sleeping toWait)
      (later : s.clock ≤ reading) :
      Step s {s with pc := .head, clock := reading}

abbrev Run := Relation.ReflTransGen Step

def enter (profile : (op : DhtOperation) → Profile op) (duration : TimeUnit) (draws : Draws) : Loop where
  workload := ⟨profile,duration⟩
  dhtNode := .make
  draws := draws
  remaining := 0
  elapsed := 0
  nextEvent := 0
  pc := .head
  clock := 0
  pushed := fun op => (profile op).eventQueue.elements
  executed := fun _ => []

/-- `setProfile` for the four operations, the duration of the Start message, and the
entry of `start`. -/
def start (accepts : Distributions) (join leave put get : Bytes) (duration : TimeUnit) (draws : Draws) :
    Except Fault Loop := do
  let (join,draws) ← Profile.makeProfile accepts .join join draws
  let (leave,draws) ← Profile.makeProfile accepts .leave leave draws
  let (put,draws) ← Profile.makeProfile accepts .put put draws
  let (get,draws) ← Profile.makeProfile accepts .get get draws
  pure (enter (fun
    | .join => join
    | .leave => leave
    | .put => put
    | .get => get) duration draws)

end Loop
end Dhtperf
