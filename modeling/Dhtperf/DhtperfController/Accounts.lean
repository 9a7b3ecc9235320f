import Dhtperf.DhtNode.Counters
import Dhtperf.DhtperfController.Acting
import Dhtperf.DhtperfMaster.Failures
import Dhtperf.Metrics.Summary

/-! What a node has counted and measured against what the loop has run. Puts and gets are
only ever run online, so every event of a run leaves a measurement. -/
namespace Dhtperf
open Library

def History.ran (history : History) : DhtOperation → Nat
  | .join => history.joins
  | .leave => history.leaves
  | .put => history.puts
  | .get => history.gets

theorem History.after_ran (history : History) (call : Call)
    (online : call.op = .put ∨ call.op = .get → history.online = true) (op : DhtOperation) :
    (history.after call).ran op = history.ran op + if op = call.op then 1 else 0 := by
  obtain ⟨kind,attempts⟩ := call
  cases kind with
  | join => cases op <;> rfl
  | leave => cases op <;> rfl
  | put =>
    simp only [after,online (Or.inl rfl),if_true]
    cases op <;> rfl
  | get =>
    simp only [after,online (Or.inr rfl),if_true]
    cases op <;> rfl

namespace DhtNode

def latency (node : DhtNode) : DhtOperation → NodeLatency Rat
  | .join => node.joinLatency
  | .leave => node.leaveLatency
  | .put => node.putLatency
  | .get => node.getLatency

/-- The durations that `getResults` writes out. -/
def durations (node : DhtNode) (op : DhtOperation) : List Int := (node.latency op).measurements.toList.map (·.2)

/-- A node that has only been pushed values in range. -/
structure Recorded (time duration : Int → Prop) (node : DhtNode) : Prop where
  series : ∀ op, ∃ pushes, node.latency op = .measure pushes ∧ ∀ p ∈ pushes, time p.1 ∧ duration p.2
  joins : ∃ counts, node.joinSuccessRate = GeneralSuccessRate.counted counts
  gets : ∃ counts, node.getSuccessRate = GeneralSuccessRate.counted counts

theorem make_recorded (time duration : Int → Prop) : make.Recorded time duration where
  series := fun op => ⟨[],by cases op <;> rfl,nofun⟩
  joins := ⟨(0,0),rfl⟩
  gets := ⟨(0,0),rfl⟩

section Recorded
variable {time duration : Int → Prop} (node after : DhtNode) (recorded : node.Recorded time duration)
include recorded

theorem Recorded.measured : node.Measured time duration := by
  intro latency listed entry member
  have inside (op : DhtOperation) (same : latency = node.latency op) : time entry.1 ∧ duration entry.2 := by
    obtain ⟨pushes,measured,range⟩ := recorded.series op
    exact range entry (NodeLatency.measure_entries pushes entry (measured ▸ same ▸ member))
  simp only [List.mem_cons,List.not_mem_nil,or_false] at listed
  rcases listed with same | same | same | same
  · exact inside .join same
  · exact inside .leave same
  · exact inside .put same
  · exact inside .get same

/-- What is written out is never more than what was counted, and all of it when no two
pushes saw the same clock reading. -/
theorem Recorded.durations_length (op : DhtOperation) :
    (node.durations op).length ≤ (node.latency op).count := by
  obtain ⟨pushes,measured,_⟩ := recorded.series op
  rw [durations,measured,NodeLatency.measure_count,List.length_map,(NodeLatency.measure_parts pushes).1]
  have keys := toList_keys_nodup (insertAll ∅ pushes)
  have inside := List.subperm_of_subset (List.Nodup.of_map _ keys) (insertAll_subset pushes)
  exact inside.length_le

theorem Recorded.push (op : DhtOperation) (attempt : Attempt)
    (latency : ∀ other, after.latency other =
      if other = op then (node.latency op).push attempt.pushed (attempt.t1 - attempt.t0) else node.latency other)
    (range : time attempt.pushed ∧ duration (attempt.t1 - attempt.t0))
    (joins : ∃ counts, after.joinSuccessRate = GeneralSuccessRate.counted counts)
    (gets : ∃ counts, after.getSuccessRate = GeneralSuccessRate.counted counts) :
    after.Recorded time duration := by
  refine ⟨fun other => ?_,joins,gets⟩
  rw [latency]
  split
  next =>
    obtain ⟨pushes,measured,inside⟩ := recorded.series op
    refine ⟨pushes ++ [(attempt.pushed,attempt.t1 - attempt.t0)],?_,fun p member => ?_⟩
    · rw [measured,NodeLatency.measure,NodeLatency.measure,NodeLatency.pushAll,NodeLatency.pushAll,
        List.foldl_append]
      rfl
    · rcases List.mem_append.mp member with earlier | now
      · exact inside p earlier
      · exact (List.mem_singleton.mp now) ▸ range
  next => exact recorded.series other

omit recorded in
theorem hit_counted (rate : NodeSuccessRate) (known : ∃ counts, rate = GeneralSuccessRate.counted counts) :
    ∃ counts, rate.hit = GeneralSuccessRate.counted counts := by
  obtain ⟨⟨hits,misses⟩,rfl⟩ := known
  exact ⟨(hits+1,misses),rfl⟩

omit recorded in
theorem miss_counted (rate : NodeSuccessRate) (known : ∃ counts, rate = GeneralSuccessRate.counted counts) :
    ∃ counts, rate.miss = GeneralSuccessRate.counted counts := by
  obtain ⟨⟨hits,misses⟩,rfl⟩ := known
  exact ⟨(hits,misses+1),rfl⟩

end Recorded

section Events
variable {time duration : Int → Prop} (node after : DhtNode) (attempts : List Attempt)
  (range : ∀ a ∈ attempts, time a.pushed ∧ duration (a.t1 - a.t0)) (recorded : node.Recorded time duration)
include range recorded

theorem joinLoop_recorded (joined : node.joinLoop attempts = some after) : after.Recorded time duration := by
  induction attempts generalizing node with
  | nil => cases joined
  | cons attempt attempts ih =>
    have now := range attempt (by simp)
    simp only [joinLoop] at joined
    split at joined
    next =>
      cases joined
      exact recorded.push node _ .join attempt (fun other => by cases other <;> rfl) now
        (hit_counted _ recorded.joins) recorded.gets
    next =>
      apply ih _ (fun a member => range a (List.mem_cons_of_mem _ member)) _ joined
      exact recorded.push node _ .join attempt (fun other => by cases other <;> rfl) now
        (miss_counted _ recorded.joins) recorded.gets

theorem processEvent_recorded (op : DhtOperation) (returned : processEvent op node attempts = some (.ok after)) :
    after.Recorded time duration := by
  have first (attempt : Attempt) (called : attempts.head? = some attempt) := range attempt (List.mem_of_head? called)
  cases op with
  | join =>
    obtain ⟨_,joined,loop,rfl⟩ := processJoinEvent_ok node after attempts returned
    have done := joinLoop_recorded node joined attempts range recorded loop
    exact ⟨done.series,done.joins,done.gets⟩
  | leave =>
    simp only [processEvent,processLeaveEvent] at returned
    split at returned
    next => cases returned
    next =>
      obtain ⟨attempt,called,same⟩ := Option.map_eq_some_iff.mp returned
      cases same
      exact recorded.push node _ .leave attempt (fun other => by cases other <;> rfl) (first attempt called)
        recorded.joins recorded.gets
  | put =>
    simp only [processEvent,processPutEvent] at returned
    split at returned
    next =>
      cases returned
      exact recorded
    next =>
      obtain ⟨attempt,called,same⟩ := Option.map_eq_some_iff.mp returned
      cases same
      exact recorded.push node _ .put attempt (fun other => by cases other <;> rfl) (first attempt called)
        recorded.joins recorded.gets
  | get =>
    simp only [processEvent,processGetEvent] at returned
    split at returned
    next =>
      cases returned
      exact recorded
    next =>
      obtain ⟨attempt,called,same⟩ := Option.map_eq_some_iff.mp returned
      cases same
      refine recorded.push node _ .get attempt (fun other => by cases other <;> rfl) (first attempt called)
        recorded.joins ?_
      cases attempt.success with
      | true => exact hit_counted _ recorded.gets
      | false => exact miss_counted _ recorded.gets

end Events

end DhtNode

namespace Loop

structure Counted (s : Loop) : Prop where
  node : ∃ history, DhtNode.Counters history s.dhtNode ∧ ∀ op, history.ran op = (s.executed op).length
  ready : ∀ poppedAt pending, s.pc = .batch poppedAt pending → ∀ op, op = .put ∨ op = .get → pending op ≠ [] →
    s.dhtNode.connected = true

theorem Counted.keeps (s after : Loop) (counted : Counted s) (node : after.dhtNode = s.dhtNode)
    (executed : after.executed = s.executed) (out : ∀ poppedAt pending, after.pc ≠ .batch poppedAt pending) :
    Counted after :=
  ⟨by rw [node,executed]; exact counted.node,fun _ _ here => absurd here (out _ _)⟩

theorem data_turn (op other : DhtOperation) (data : other = .put ∨ other = .get) (inTurn : ¬turn other < turn op) :
    op = .put ∨ op = .get := by
  rcases data with rfl | rfl <;> cases op <;>
    first | exact Or.inl rfl | exact Or.inr rfl | exact absurd (by decide) inTurn

theorem processEvent_online (op : DhtOperation) (data : op = .put ∨ op = .get) (node after : DhtNode)
    (attempts : List Attempt) (online : node.connected = true)
    (returned : DhtNode.processEvent op node attempts = some (.ok after)) : after.connected = true := by
  have mode : node.connected = DhtNode.wanted op := by rcases data with rfl | rfl <;> exact online
  obtain ⟨_,same,left⟩ := DhtNode.processEvent_wanted op node attempts _ mode returned
  cases same
  rcases data with rfl | rfl <;> exact left

theorem ran_length (s : Loop) (poppedAt : TimeUnit) {op : DhtOperation} (event : DhtEvent op) (node : DhtNode)
    (reading : Nat) (pc : Pc) (other : DhtOperation) :
    ((s.ran poppedAt event node reading pc).executed other).length =
      (s.executed other).length + if other = op then 1 else 0 := by
  by_cases same : other = op
  · subst same
    rw [ran_executed,if_pos rfl,List.length_append,List.length_singleton]
  · rw [ran_other s poppedAt event node reading pc other same,if_neg same]
    rfl

variable [heap : StdHeap]

theorem moves_counted (s after : Loop) (counted : Counted s) (moves : Moves s after) : Counted after := by
  cases moves with
  | expired reading here up => exact counted.keeps s _ rfl rfl (fun _ _ => nofun)
  | failed reading fault here => exact counted.keeps s _ rfl rfl (fun _ _ => nofun)
  | waits reading polled here later more ok early => exact counted.keeps s _ rfl rfl (fun _ _ => nofun)
  | refused poppedAt pending op attempts fault here busy returned => exact counted.keeps s _ rfl rfl (fun _ _ => nofun)
  | wake toWait reading here later => exact counted.keeps s _ rfl rfl (fun _ _ => nofun)
  | batchDone poppedAt pending here empty =>
    rcases afterEvents_cases s with same | ⟨toWait,same⟩
    · exact counted.keeps s _ (by rw [same]) (by rw [same]) (by rw [same]; exact fun _ _ => nofun)
    · exact counted.keeps s _ (by rw [same]) (by rw [same]) (by rw [same]; exact fun _ _ => nofun)
  | popped reading polled here later more ok some due =>
    refine ⟨counted.node,fun poppedAt pending same op data busy => ?_⟩
    cases same
    by_cases mode : op ∈ modeOperations s.dhtNode.connected
    · have wants := mode_wanted _ op mode
      rcases data with rfl | rfl <;> exact wants
    · exact absurd (if_neg mode) busy
  | handled poppedAt pending op event rest attempts node reading pc here first next returned later check =>
    obtain ⟨history,counters,lengths⟩ := counted.node
    have online : op = .put ∨ op = .get → s.dhtNode.connected = true :=
      fun data => counted.ready poppedAt pending here op data (by simp [next])
    refine ⟨⟨history.after ⟨op,attempts⟩,?_,fun other => ?_⟩,fun poppedAt' pending' same other data busy => ?_⟩
    · exact DhtNode.processEvent_counters history s.dhtNode node ⟨op,attempts⟩ counters returned
    · rw [History.after_ran history ⟨op,attempts⟩ (fun data => counters.online.symm.trans (online data)),lengths,
        ran_length]
    · rcases check with ⟨_,rfl⟩ | ⟨_,rfl⟩
      · cases same
      cases same
      -- A put or get that is left is behind a put or get, so the node is still online.
      have still : pending other ≠ [] := by
        obtain ⟨x,member⟩ := List.exists_mem_of_ne_nil _ busy
        exact List.ne_nil_of_mem (mem_rest pending event rest next other x member)
      have kind := data_turn op other data fun earlier => still (first other earlier)
      exact processEvent_online op kind s.dhtNode node attempts (online kind) returned

theorem run_counted (accepts : Distributions) (join leave put get : Bytes) (duration : TimeUnit) (draws : Draws)
    (first s : Loop) (accepted : start accepts join leave put get duration draws = .ok first) (run : Run first s) :
    Counted s := by
  obtain ⟨profile,draws,rfl,_⟩ := start_enters accepts join leave put get duration draws first accepted
  refine run_invariant run ⟨⟨.start,DhtNode.start_counters,fun op => by cases op <;> rfl⟩,nofun⟩ ?_
  intro before after counted step
  exact moves_counted before after counted (step_moves before after step)

/-! ### What is written out -/

omit heap in
def Action.Within (time duration : Int → Prop) : Action → Prop
  | .event attempts _ => ∀ a ∈ attempts, time a.pushed ∧ duration (a.t1 - a.t0)
  | _ => True

omit heap in
instance (time duration : Int → Prop) [DecidablePred time] [DecidablePred duration] (action : Action) :
    Decidable (action.Within time duration) := by
  cases action <;> dsimp only [Action.Within] <;> infer_instance

theorem moves_node (s after : Loop) (moves : Moves s after) (out : ∀ poppedAt pending, s.pc ≠ .batch poppedAt pending) :
    after.dhtNode = s.dhtNode := by
  cases moves with
  | handled poppedAt pending op event rest attempts node reading pc here first next returned later check =>
    exact absurd here (out poppedAt pending)
  | batchDone poppedAt pending here empty => exact absurd here (out poppedAt pending)
  | _ => rfl

theorem act_recorded {time duration : Int → Prop} (s after : Loop) (action : Action)
    (within : action.Within time duration) (acted : s.act action = some after)
    (recorded : s.dhtNode.Recorded time duration) : after.dhtNode.Recorded time duration := by
  by_cases running : ∃ attempts reading, action = .event attempts reading
  · obtain ⟨attempts,reading,rfl⟩ := running
    obtain ⟨poppedAt,pending,op,event,rest,result,here,first,next,returned,later,rfl⟩ :=
      (act_event s after attempts reading).mp acted
    cases result with
    | error fault => exact recorded
    | ok node =>
      have done := DhtNode.processEvent_recorded s.dhtNode node attempts within recorded op returned
      unfold afterEvent
      dsimp only
      split <;> exact done
  · have same : after.dhtNode = s.dhtNode := by
      cases action with
      | event attempts reading => exact absurd ⟨attempts,reading,rfl⟩ running
      | batchDone =>
        simp only [act] at acted
        split at acted
        next =>
          split at acted
          next =>
            cases acted
            rcases afterEvents_cases s with same | ⟨toWait,same⟩
            · rw [same]
            · rw [same]
          next => cases acted
        next => cases acted
      | pass reading =>
        have moves := step_moves s after ((step_act s after).mpr ⟨_,acted⟩)
        refine moves_node s after moves fun poppedAt pending here => ?_
        simp only [act,here] at acted
        cases acted
      | wake reading =>
        have moves := step_moves s after ((step_act s after).mpr ⟨_,acted⟩)
        refine moves_node s after moves fun poppedAt pending here => ?_
        simp only [act,here] at acted
        cases acted
    rw [same]
    exact recorded

theorem run_within (first s : Loop) (run : Run first s) : Relation.ReflTransGen
    (StepIf act fun _ action => Action.Within (fun _ => True) (fun _ => True) action) first s :=
  Relation.ReflTransGen.mono (fun before after ⟨action,_,acted⟩ =>
    ⟨action,by cases action <;> simp [Action.Within],acted⟩) _ _ (run_actions first s run)

omit heap in
structure Accounts (s : Loop) : Prop where
  runs : ∀ op, op ≠ .join → (s.dhtNode.latency op).count = (s.executed op).length
  joins : s.dhtNode.joinSuccessRate.hits = (s.executed .join).length
  tries : ((s.dhtNode.latency .join).count : Int) = s.dhtNode.joinSuccessRate.hits + s.dhtNode.joinSuccessRate.misses
  gets : ((s.executed .get).length : Int) = s.dhtNode.getSuccessRate.hits + s.dhtNode.getSuccessRate.misses
  written : ∀ op, (s.dhtNode.durations op).length ≤ (s.dhtNode.latency op).count
  visits : (s.executed .join).length = (s.executed .leave).length + if s.dhtNode.connected then 1 else 0

theorem run_recorded {time duration : Int → Prop} (first s : Loop) (start : first.dhtNode.Recorded time duration)
    (run : Relation.ReflTransGen (StepIf act fun _ action => Action.Within time duration action) first s) :
    s.dhtNode.Recorded time duration := by
  induction run with
  | refl => exact start
  | tail earlier step recorded =>
    obtain ⟨action,within,acted⟩ := step
    exact act_recorded _ _ action within acted recorded

omit heap in
theorem counted_accounts (s : Loop) (counted : Counted s)
    (recorded : s.dhtNode.Recorded (fun _ => True) (fun _ => True)) : Accounts s := by
  obtain ⟨history,counters,lengths⟩ := counted.node
  have joins : s.dhtNode.joinSuccessRate.hits = (s.executed .join).length :=
    counters.joins.trans (congrArg Nat.cast (lengths .join))
  have leaves : s.dhtNode.leaveLatency.count = (s.executed .leave).length := counters.leaves.trans (lengths .leave)
  have gets : s.dhtNode.getLatency.count = (s.executed .get).length := counters.gets.trans (lengths .get)
  refine ⟨fun op other => ?_,joins,counters.tries_rate,?_,recorded.durations_length,?_⟩
  · cases op with
    | join => exact absurd rfl other
    | leave => exact leaves
    | put => exact counters.puts.trans (lengths .put)
    | get => exact gets
  · rw [← gets]
    exact counters.gets_rate
  · have balance := counters.balance
    have online := counters.connected_iff
    rw [joins,leaves] at balance online
    split
    next here =>
      have one := online.mp here
      omega
    next away =>
      have none : ¬(((s.executed .join).length : Int) - (s.executed .leave).length = 1) :=
        fun one => away (online.mpr one)
      omega

/-- In every state of every run of `start` the node has counted each leave, put and get that
was run once, every join as a hit and every failed attempt to join as a miss, and it
is online exactly when it has joined once more than it has left. -/
theorem node_accounts (accepts : Distributions) (join leave put get : Bytes) (duration : TimeUnit) (draws : Draws)
    (first s : Loop) (accepted : start accepts join leave put get duration draws = .ok first) (run : Run first s) :
    Accounts s := by
  refine counted_accounts s (run_counted accepts join leave put get duration draws first s accepted run) ?_
  obtain ⟨profile,draws,rfl,_⟩ := start_enters accepts join leave put get duration draws first accepted
  exact run_recorded (enter profile duration draws) s (DhtNode.make_recorded _ _) (run_within _ s run)

omit heap in
/-- A join that fails once. -/
theorem accounts_join : startJoining (ascii "exact 1") 10 = .ok (joining [1] 10) ∧
    ∃ s, @Run plainHeap (joining [1] 10) s ∧ s.dhtNode.joinSuccessRate.misses = 1 ∧ Accounts s := by
  let heap := plainHeap
  have accepted : startJoining (ascii "exact 1") 10 = .ok (joining [1] 10) := rfl
  obtain ⟨s,run,failed⟩ := perform_run act (fun _ _ => True)
    [.pass 1,.event [⟨false,1,2,2⟩,⟨true,3,5,5⟩] 6] (joining [1] 10)
    (fun s => s.dhtNode.joinSuccessRate.misses = 1) (by decide +kernel)
  have steps := actions_run _ _ s run
  exact ⟨accepted,s,steps,of_decide_eq_true failed,node_accounts _ _ _ _ _ _ _ _ s accepted steps⟩

end Loop
end Dhtperf
