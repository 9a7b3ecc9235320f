import Dhtperf.DhtperfController.Polling
import Dhtperf.Library.Runs

/-! What a step of the loop can do, said once: the clock check that goes on, and the
outcomes of a pass, of an event and of a wait. -/
namespace Dhtperf
open Library

namespace Loop

theorem mode_wanted (connected : Bool) (op : DhtOperation) (mode : op ∈ modeOperations connected) :
    connected = DhtNode.wanted op := by
  revert mode
  cases connected <;> cases op <;> decide

/-- What `DHTPERF_CHECK_DONE` leaves when it does not return: elapsed seconds are
rounded up and the rest of the run is positive. -/
structure Checked (s : Loop) (reading : Nat) : Prop where
  positive : 0 < s.remaining
  total : (s.elapsed.toNat : Int) + s.remaining = s.duration.toNat
  reached : reading ≤ s.elapsed.toNat * 1000000
  close : s.elapsed.toNat * 1000000 < reading + 1000000

theorem totalSeconds_nonneg (microseconds : Int) (nonneg : 0 ≤ microseconds) :
    totalSeconds microseconds = microseconds / 1000000 :=
  Int.tdiv_eq_ediv_of_nonneg nonneg

theorem totalSeconds_nonpos (microseconds : Int) (nonpos : microseconds ≤ 0) :
    totalSeconds microseconds ≤ 0 := by
  have low : totalSeconds microseconds ≤ (0 : Int).tdiv 1000000 := Int.tdiv_le_tdiv (by omega) nonpos
  simpa using low

theorem readClock_checked (s : Loop) (reading : Nat) (more : (s.readClock reading).timeUp = false) :
    Checked (s.readClock reading) reading := by
  have limit : s.duration.toNat < 2^32 := s.duration.toNat_lt
  have kept : (s.readClock reading).duration = s.duration := rfl
  have seconds : (s.readClock reading).remaining =
      totalSeconds ((s.duration.toNat : Int) * 1000000 - reading) := rfl
  have passed : (s.readClock reading).elapsed =
      UInt32.ofInt ((s.duration.toNat : Int) - (s.readClock reading).remaining) := rfl
  simp only [timeUp,kept,ge_iff_le,Bool.or_eq_false_iff,decide_eq_false_iff_not,Int.not_lt,
    UInt32.not_le,UInt32.lt_iff_toNat_lt] at more
  obtain ⟨nonneg,before⟩ := more
  have inside : 0 < (s.duration.toNat : Int) * 1000000 - reading := by
    by_contra outside
    -- Nothing remains, so the elapsed time is the whole duration.
    have none := totalSeconds_nonpos _ (Int.not_lt.mp outside)
    have zero : (s.readClock reading).remaining = 0 := by omega
    rw [zero] at passed
    have whole := ofInt_toNat ((s.duration.toNat : Int) - 0) (by omega) (by omega)
    rw [← passed] at whole
    omega
  rw [totalSeconds_nonneg _ (Int.le_of_lt inside)] at seconds
  have rounded := ofInt_toNat ((s.duration.toNat : Int) - (s.readClock reading).remaining)
    (by omega) (by omega)
  rw [← passed] at rounded
  refine ⟨?_,?_,?_,?_⟩
  · omega
  · rw [kept]; omega
  · omega
  · omega

def waitsFor (s : Loop) : TimeUnit :=
  if s.nextEvent ≠ 0 then s.nextEvent - s.elapsed else UInt32.ofInt s.remaining

theorem afterEvents_early (s : Loop) (early : s.nextEvent ≠ 0 → s.elapsed < s.nextEvent) :
    s.afterEvents = {s with pc := .sleeping s.waitsFor} := by
  unfold afterEvents waitsFor
  split
  next some => exact if_pos (early some)
  next => rfl

theorem afterEvents_due (s : Loop) (some : s.nextEvent ≠ 0) (due : s.nextEvent ≤ s.elapsed) :
    s.afterEvents = {s with pc := .head} := by
  unfold afterEvents
  rw [if_pos some]
  exact if_neg (UInt32.not_lt.mpr due)

theorem afterEvents_cases (s : Loop) :
    s.afterEvents = {s with pc := .head} ∨ ∃ toWait, s.afterEvents = {s with pc := .sleeping toWait} := by
  by_cases due : s.nextEvent ≠ 0 ∧ s.nextEvent ≤ s.elapsed
  · exact Or.inl (afterEvents_due s due.1 due.2)
  · refine Or.inr ⟨s.waitsFor,afterEvents_early s fun some => ?_⟩
    exact UInt32.not_le.mp fun late => due ⟨some,late⟩

def ran (s : Loop) (poppedAt : TimeUnit) {op : DhtOperation} (event : DhtEvent op) (node : DhtNode)
    (reading : Nat) (pc : Pc) : Loop :=
  {s.readClock reading with
    dhtNode := node
    executed := Function.update s.executed op
      (s.executed op ++ [(⟨event,poppedAt,s.dhtNode.connected⟩ : Executed op)])
    pc := pc}

@[simp] theorem ran_executed (s : Loop) (poppedAt : TimeUnit) {op : DhtOperation} (event : DhtEvent op)
    (node : DhtNode) (reading : Nat) (pc : Pc) :
    (s.ran poppedAt event node reading pc).executed op =
      s.executed op ++ [⟨event,poppedAt,s.dhtNode.connected⟩] :=
  Function.update_self ..

theorem ran_other (s : Loop) (poppedAt : TimeUnit) {op : DhtOperation} (event : DhtEvent op)
    (node : DhtNode) (reading : Nat) (pc : Pc) (other : DhtOperation) (different : other ≠ op) :
    (s.ran poppedAt event node reading pc).executed other = s.executed other :=
  Function.update_of_ne different ..

theorem afterEvent_over (s : Loop) (poppedAt : TimeUnit) (pending : (op : DhtOperation) → List (DhtEvent op))
    {op : DhtOperation} (event : DhtEvent op) (rest : List (DhtEvent op)) (node : DhtNode) (reading : Nat)
    (up : (s.readClock reading).timeUp = true) :
    s.afterEvent poppedAt pending event rest (.ok node) reading =
      s.ran poppedAt event node reading (.ended .returned) :=
  if_pos up

theorem afterEvent_more (s : Loop) (poppedAt : TimeUnit) (pending : (op : DhtOperation) → List (DhtEvent op))
    {op : DhtOperation} (event : DhtEvent op) (rest : List (DhtEvent op)) (node : DhtNode) (reading : Nat)
    (more : (s.readClock reading).timeUp = false) :
    s.afterEvent poppedAt pending event rest (.ok node) reading =
      s.ran poppedAt event node reading (.batch poppedAt (Function.update pending op rest)) := by
  have going : ¬(s.readClock reading).timeUp = true := by simp [more]
  exact if_neg going

theorem mem_rest (pending : (op : DhtOperation) → List (DhtEvent op)) {op : DhtOperation} (event : DhtEvent op)
    (rest : List (DhtEvent op)) (next : pending op = event :: rest) (other : DhtOperation) (left : DhtEvent other)
    (member : left ∈ Function.update pending op rest other) : left ∈ pending other := by
  by_cases same : other = op
  · subst same
    rw [Function.update_self] at member
    rw [next]
    exact List.mem_cons_of_mem event member
  · rwa [Function.update_of_ne same] at member

variable [heap : StdHeap]

inductive Moves (s : Loop) : Loop → Prop
  | expired (reading : Nat) (here : s.pc = .head) (up : (s.readClock reading).timeUp = true) :
      Moves s {s.readClock reading with pc := .ended .returned}
  | failed (reading : Nat) (fault : Fault) (here : s.pc = .head) :
      Moves s {s.readClock reading with pc := .ended (.fault fault)}
  | popped (reading : Nat) (polled : Polled) (here : s.pc = .head) (later : s.clock ≤ reading)
      (more : (s.readClock reading).timeUp = false)
      (ok : s.workload.getNextEventTime (s.readClock reading).elapsed s.dhtNode.connected s.draws = .ok polled)
      (some : ((s.readClock reading).refresh polled).nextEvent ≠ 0)
      (due : ((s.readClock reading).refresh polled).nextEvent ≤ (s.readClock reading).elapsed) :
      Moves s ((s.readClock reading).refresh polled).popBatch
  | waits (reading : Nat) (polled : Polled) (here : s.pc = .head) (later : s.clock ≤ reading)
      (more : (s.readClock reading).timeUp = false)
      (ok : s.workload.getNextEventTime (s.readClock reading).elapsed s.dhtNode.connected s.draws = .ok polled)
      (early : ((s.readClock reading).refresh polled).nextEvent ≠ 0 →
        (s.readClock reading).elapsed < ((s.readClock reading).refresh polled).nextEvent) :
      Moves s {(s.readClock reading).refresh polled with
        pc := .sleeping ((s.readClock reading).refresh polled).waitsFor}
  | refused (poppedAt : TimeUnit) (pending : (op : DhtOperation) → List (DhtEvent op))
      (op : DhtOperation) (attempts : List Attempt) (fault : Fault)
      (here : s.pc = .batch poppedAt pending) (busy : pending op ≠ [])
      (returned : DhtNode.processEvent op s.dhtNode attempts = some (.error fault)) :
      Moves s {s with pc := .ended .wrongMode}
  | handled (poppedAt : TimeUnit) (pending : (op : DhtOperation) → List (DhtEvent op))
      (op : DhtOperation) (event : DhtEvent op) (rest : List (DhtEvent op))
      (attempts : List Attempt) (node : DhtNode) (reading : Nat) (pc : Pc)
      (here : s.pc = .batch poppedAt pending)
      (first : ∀ other, turn other < turn op → pending other = [])
      (next : pending op = event :: rest)
      (returned : DhtNode.processEvent op s.dhtNode attempts = some (.ok node))
      (later : s.clock ≤ reading)
      (check : ((s.readClock reading).timeUp = true ∧ pc = .ended .returned) ∨
        ((s.readClock reading).timeUp = false ∧ pc = .batch poppedAt (Function.update pending op rest))) :
      Moves s (s.ran poppedAt event node reading pc)
  | batchDone (poppedAt : TimeUnit) (pending : (op : DhtOperation) → List (DhtEvent op))
      (here : s.pc = .batch poppedAt pending) (empty : ∀ op, pending op = []) :
      Moves s s.afterEvents
  | wake (toWait : TimeUnit) (reading : Nat) (here : s.pc = .sleeping toWait)
      (later : s.clock ≤ reading) : Moves s {s with pc := .head, clock := reading}

theorem poll_failed (s : Loop) (fault : Fault)
    (failed : s.workload.getNextEventTime s.elapsed s.dhtNode.connected s.draws = .error fault) :
    s.poll = {s with pc := .ended (.fault fault)} := by
  unfold poll
  rw [failed]

theorem poll_due (s : Loop) (polled : Polled)
    (ok : s.workload.getNextEventTime s.elapsed s.dhtNode.connected s.draws = .ok polled)
    (some : (s.refresh polled).nextEvent ≠ 0) (due : (s.refresh polled).nextEvent ≤ (s.refresh polled).elapsed) :
    s.poll = (s.refresh polled).popBatch := by
  unfold poll
  rw [ok]
  exact if_pos ⟨due,some⟩

theorem poll_early (s : Loop) (polled : Polled)
    (ok : s.workload.getNextEventTime s.elapsed s.dhtNode.connected s.draws = .ok polled)
    (early : ¬((s.refresh polled).elapsed ≥ (s.refresh polled).nextEvent ∧ (s.refresh polled).nextEvent ≠ 0)) :
    s.poll = (s.refresh polled).afterEvents := by
  unfold poll
  rw [ok]
  exact if_neg early

theorem pass_up (s : Loop) (reading : Nat) (up : (s.readClock reading).timeUp = true) :
    s.pass reading = {s.readClock reading with pc := .ended .returned} := if_pos up

theorem pass_more (s : Loop) (reading : Nat) (more : (s.readClock reading).timeUp = false) :
    s.pass reading = (s.readClock reading).poll := if_neg (by simp [more])

theorem step_moves (s after : Loop) (step : Step s after) : Moves s after := by
  cases step with
  | pass reading here later =>
    cases up : (s.readClock reading).timeUp with
    | true =>
      rw [pass_up s reading up]
      exact .expired reading here up
    | false =>
      rw [pass_more s reading up]
      cases ok : s.workload.getNextEventTime (s.readClock reading).elapsed s.dhtNode.connected s.draws with
      | error fault =>
        rw [poll_failed (s.readClock reading) fault ok]
        exact .failed reading fault here
      | ok polled =>
        by_cases due : ((s.readClock reading).refresh polled).elapsed ≥ ((s.readClock reading).refresh polled).nextEvent ∧
            ((s.readClock reading).refresh polled).nextEvent ≠ 0
        · rw [poll_due (s.readClock reading) polled ok due.2 due.1]
          exact .popped reading polled here later up ok due.2 due.1
        · have wait : ((s.readClock reading).refresh polled).nextEvent ≠ 0 →
              (s.readClock reading).elapsed < ((s.readClock reading).refresh polled).nextEvent :=
            fun some => UInt32.not_le.mp fun late => due ⟨late,some⟩
          rw [poll_early (s.readClock reading) polled ok due,afterEvents_early _ wait]
          exact .waits reading polled here later up ok wait
  | event poppedAt pending op event rest attempts result reading here first next returned later =>
    cases result with
    | error fault => exact .refused poppedAt pending op attempts fault here (by simp [next]) returned
    | ok node =>
      cases up : (s.readClock reading).timeUp with
      | true =>
        rw [afterEvent_over s poppedAt pending event rest node reading up]
        exact .handled poppedAt pending op event rest attempts node reading _ here first next returned later
          (Or.inl ⟨up,rfl⟩)
      | false =>
        rw [afterEvent_more s poppedAt pending event rest node reading up]
        exact .handled poppedAt pending op event rest attempts node reading _ here first next returned later
          (Or.inr ⟨up,rfl⟩)
  | batchDone poppedAt pending here empty => exact .batchDone poppedAt pending here empty
  | wake toWait reading here later => exact .wake toWait reading here later

omit heap in
theorem afterEvents_clock (s : Loop) : s.afterEvents.clock = s.clock ∧ s.afterEvents.duration = s.duration := by
  rcases afterEvents_cases s with same | ⟨toWait,same⟩
  · rw [same]
    exact ⟨rfl,rfl⟩
  · rw [same]
    exact ⟨rfl,rfl⟩

theorem poll_clock (s : Loop) : s.poll.clock = s.clock ∧ s.poll.duration = s.duration := by
  cases ok : s.workload.getNextEventTime s.elapsed s.dhtNode.connected s.draws with
  | error fault =>
    unfold poll
    rw [ok]
    exact ⟨rfl,rfl⟩
  | ok polled =>
    by_cases due : (s.refresh polled).elapsed ≥ (s.refresh polled).nextEvent ∧ (s.refresh polled).nextEvent ≠ 0
    · rw [poll_due s polled ok due.2 due.1]
      exact ⟨rfl,rfl⟩
    · rw [poll_early s polled ok due]
      exact afterEvents_clock (s.refresh polled)

theorem pass_clock (s : Loop) (reading : Nat) :
    (s.pass reading).clock = reading ∧ (s.pass reading).duration = s.duration := by
  cases up : (s.readClock reading).timeUp with
  | true =>
    rw [pass_up s reading up]
    exact ⟨rfl,rfl⟩
  | false =>
    rw [pass_more s reading up]
    exact poll_clock _

theorem step_clock (s after : Loop) (step : Step s after) : s.clock ≤ after.clock ∧ after.duration = s.duration := by
  cases step with
  | pass reading here later =>
    have same := pass_clock s reading
    exact ⟨same.1.symm ▸ later,same.2⟩
  | event poppedAt pending op event rest attempts result reading here first next returned later =>
    cases result with
    | error fault => exact ⟨Nat.le_refl _,rfl⟩
    | ok node =>
      cases up : (s.readClock reading).timeUp with
      | true =>
        rw [afterEvent_over s poppedAt pending event rest node reading up]
        exact ⟨later,rfl⟩
      | false =>
        rw [afterEvent_more s poppedAt pending event rest node reading up]
        exact ⟨later,rfl⟩
  | batchDone poppedAt pending here empty =>
    have same := afterEvents_clock s
    exact ⟨same.1.symm ▸ Nat.le_refl _,same.2⟩
  | wake toWait reading here later => exact ⟨later,rfl⟩

theorem popBatch_pending (s : Loop) : ∃ pending, s.popBatch.pc = .batch s.elapsed pending ∧ ∀ op event,
    event ∈ pending op ↔ op ∈ modeOperations s.dhtNode.connected ∧ event ∈ s.queued op ∧ event.time ≤ s.elapsed := by
  refine ⟨_,rfl,fun op event => ?_⟩
  by_cases mode : op ∈ modeOperations s.dhtNode.connected
  · rw [if_pos mode]
    have perm := PriorityQueue.popUpTo_perm (s.profile op).eventQueue s.elapsed.toNat
    constructor
    · intro popped
      have due := PriorityQueue.popUpTo_due (s.profile op).eventQueue s.elapsed.toNat event popped
      exact ⟨mode,perm.subset (List.mem_append_left _ popped),UInt32.le_iff_toNat_le.mpr due⟩
    · rintro ⟨_,queued,due⟩
      rcases List.mem_append.mp (perm.mem_iff.mpr queued) with popped | stays
      · exact popped
      · have later := PriorityQueue.popUpTo_left (s.profile op).eventQueue s.elapsed.toNat event stays
        exact absurd (UInt32.le_iff_toNat_le.mp due) (Nat.not_le.mpr later)
  · rw [if_neg mode]
    exact iff_of_false List.not_mem_nil fun all => mode all.1

/-- The elapsed time never runs ahead of the clock, and a batch was popped because its
time had come. -/
structure Paced (s : Loop) : Prop where
  close : (∀ ending, s.pc ≠ .ended ending) → s.elapsed.toNat * 1000000 < s.clock + 1000000
  due : ∀ poppedAt pending, s.pc = .batch poppedAt pending → s.nextEvent ≠ 0 ∧ s.nextEvent ≤ s.elapsed

omit heap in
theorem readClock_later (s : Loop) (reading : Nat) (close : s.elapsed.toNat * 1000000 < s.clock + 1000000)
    (later : s.clock ≤ reading) (more : (s.readClock reading).timeUp = false) :
    s.elapsed ≤ (s.readClock reading).elapsed := by
  have reached := (readClock_checked s reading more).reached
  rw [UInt32.le_iff_toNat_le]
  omega

theorem moves_paced (s after : Loop) (paced : Paced s) (moves : Moves s after) : Paced after := by
  cases moves with
  | expired reading here up => exact ⟨fun running => absurd rfl (running .returned),nofun⟩
  | failed reading fault here => exact ⟨fun running => absurd rfl (running (.fault fault)),nofun⟩
  | refused poppedAt pending op attempts fault here busy returned =>
    exact ⟨fun running => absurd rfl (running .wrongMode),nofun⟩
  | popped reading polled here later more ok some due =>
    exact ⟨fun _ => (readClock_checked s reading more).close,fun _ _ _ => ⟨some,due⟩⟩
  | waits reading polled here later more ok early =>
    exact ⟨fun _ => (readClock_checked s reading more).close,nofun⟩
  | handled poppedAt pending op event rest attempts node reading pc here first next returned later check =>
    rcases check with ⟨up,rfl⟩ | ⟨more,rfl⟩
    · exact ⟨fun running => absurd rfl (running .returned),nofun⟩
    · have close := paced.close (by simp [here])
      have due := paced.due poppedAt pending here
      refine ⟨fun _ => (readClock_checked s reading more).close,fun _ _ _ => ⟨due.1,?_⟩⟩
      exact UInt32.le_trans due.2 (readClock_later s reading close later more)
  | batchDone poppedAt pending here empty =>
    have due := paced.due poppedAt pending here
    rw [afterEvents_due s due.1 due.2]
    exact ⟨fun _ => paced.close (by simp [here]),nofun⟩
  | wake toWait reading here later =>
    refine ⟨fun _ => ?_,nofun⟩
    have close := paced.close (by simp [here])
    change s.elapsed.toNat * 1000000 < reading + 1000000
    omega

/-- Every accepted start stands at the head of the loop with accepted profiles and
nothing run yet. -/
theorem start_enters (accepts : Distributions) (join leave put get : Bytes) (duration : TimeUnit)
    (draws : Draws) (first : Loop) (accepted : start accepts join leave put get duration draws = .ok first) :
    ∃ profile draws, first = enter profile duration draws ∧ ∀ op, ∃ text before after,
      Profile.makeProfile accepts op text before = .ok (profile op,after) := by
  obtain ⟨⟨joins,_⟩,joined,accepted⟩ := bind_ok accepted
  obtain ⟨⟨leaves,_⟩,left,accepted⟩ := bind_ok accepted
  obtain ⟨⟨puts,_⟩,put,accepted⟩ := bind_ok accepted
  obtain ⟨⟨gets,_⟩,got,accepted⟩ := bind_ok accepted
  cases accepted
  refine ⟨_,_,rfl,?_⟩
  intro op
  cases op with
  | join => exact ⟨_,_,_,joined⟩
  | leave => exact ⟨_,_,_,left⟩
  | put => exact ⟨_,_,_,put⟩
  | get => exact ⟨_,_,_,got⟩

omit heap in
theorem enter_paced (profile : (op : DhtOperation) → Profile op) (duration : TimeUnit) (draws : Draws) :
    Paced (enter profile duration draws) := by
  refine ⟨fun _ => ?_,nofun⟩
  change (0 : UInt32).toNat * 1000000 < 0 + 1000000
  decide

/-! ### A node that only joins -/

def startJoining (join : Bytes) (duration : TimeUnit) : Except Fault Loop :=
  @start plainHeap ⟨fun _ => false,fun _ _ => false⟩ join (ascii "none") (ascii "none") (ascii "none")
    duration (fun _ => 0)

def joining (times : List TimeUnit) (duration : TimeUnit) : Loop :=
  letI := plainHeap
  enter (fun
    | .join => ⟨.exact,filledQueue (times.map fun time => ⟨time,()⟩),nofun⟩
    | .leave => ⟨.none,PriorityQueue.empty,fun _ => rfl⟩
    | .put => ⟨.none,PriorityQueue.empty,fun _ => rfl⟩
    | .get => ⟨.none,PriorityQueue.empty,fun _ => rfl⟩) duration (fun _ => 0)

end Loop
end Dhtperf
