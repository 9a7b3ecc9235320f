import Dhtperf.DhtperfController.Moves
import Mathlib.Data.Prod.Lex

/-! Does `start` come to an end? With profiles that push nothing after they were made, each
pass takes events off a queue or lets the clock run on. -/
namespace Dhtperf
open Library Relation

/-- The classes that push all their events in the constructor. -/
def ProfileKind.Fixed : ProfileKind → Prop
  | .exact => True
  | .fullDictionary => True
  | .nTimesRandom _ => True
  | .none => True
  | .interval .. => False
  | .now => False
  | .poissonRandom .. => False
  | .weibullRandom _ => False

namespace Profile
variable {op : DhtOperation} [heap : StdHeap]

theorem scheduleNextEvent_fixed (profile : Profile op) (fixed : profile.kind.Fixed) (currentTime : TimeUnit)
    (draws : Draws) : profile.scheduleNextEvent currentTime draws = .ok (profile.unchanged draws) := by
  unfold scheduleNextEvent
  split
  next => rfl
  next => rfl
  next => rfl
  next quiet =>
    rw [unchanged,EventQueue.getNextEventTime_empty _ (profile.silent quiet)]
    rfl
  all_goals
    next kind => rw [kind] at fixed; exact fixed.elim

end Profile

theorem earlier_choice (ret aux : TimeUnit) : earlier ret aux = ret ∨ earlier ret aux = aux := by
  unfold earlier
  split
  · exact Or.inr rfl
  · exact Or.inl rfl

namespace ControllerWorkloadProfile
variable [heap : StdHeap]

theorem getNextEventTime_fixed (workload : ControllerWorkloadProfile) (fixed : ∀ op, (workload.profile op).kind.Fixed)
    (currentTime : TimeUnit) (connected : Bool) (draws : Draws) :
    ∃ time, workload.getNextEventTime currentTime connected draws = .ok ⟨workload.profile,time,fun _ => [],draws⟩ ∧
      ∃ op ∈ modeOperations connected, (workload.profile op).eventQueue.getNextEventTime = time := by
  have polled (op : DhtOperation) (draws : Draws) := (workload.profile op).scheduleNextEvent_fixed (fixed op) currentTime draws
  have known (profile : (op : DhtOperation) → Profile op) (pushed : (op : DhtOperation) → List (DhtEvent op))
      (time : TimeUnit) (same : ∀ op, profile op = workload.profile op) (none : ∀ op, pushed op = []) :
      (⟨profile,time,pushed,draws⟩ : Polled) = ⟨workload.profile,time,fun _ => [],draws⟩ := by
    rw [funext same,funext none]
  unfold getNextEventTime
  cases connected with
  | false =>
    simp only [Bool.false_eq_true,if_false,bind,Except.bind,polled]
    refine ⟨_,congrArg Except.ok (known _ _ _ ?_ ?_),.join,List.mem_singleton.mpr rfl,rfl⟩
    · intro op
      cases op <;> rfl
    · intro op
      cases op <;> rfl
  | true =>
    simp only [if_true,bind,Except.bind,polled]
    refine ⟨_,congrArg Except.ok (known _ _ _ ?_ ?_),?_⟩
    · intro op
      cases op <;> rfl
    · intro op
      cases op <;> rfl
    · simp only [Profile.unchanged]
      rcases earlier_choice (earlier (workload.profile .leave).eventQueue.getNextEventTime
        (workload.profile .put).eventQueue.getNextEventTime) (workload.profile .get).eventQueue.getNextEventTime with first | last
      · rcases earlier_choice (workload.profile .leave).eventQueue.getNextEventTime
          (workload.profile .put).eventQueue.getNextEventTime with leave | put
        · exact ⟨.leave,by decide,(first.trans leave).symm⟩
        · exact ⟨.put,by decide,(first.trans put).symm⟩
      · exact ⟨.get,by decide,last.symm⟩

end ControllerWorkloadProfile

namespace Loop

def total (events : (op : DhtOperation) → List (DhtEvent op)) : Nat :=
  (events .join).length + (events .leave).length + (events .put).length + (events .get).length

def queuedCount (s : Loop) : Nat := total s.queued

/-- What is left to do before the next pass or the next wait. -/
def phase (s : Loop) : Nat :=
  match s.pc with
  | .head => 1
  | .batch _ pending => total pending + 2
  | .sleeping _ => 0
  | .ended _ => 0

def left (s : Loop) : Nat := s.duration.toNat * 1000000 - s.clock

/-- The clock comes first, then the queues, then the place in the loop. -/
def measure (s : Loop) : Nat ×ₗ Nat ×ₗ Nat := toLex (s.left,toLex (s.queuedCount,s.phase))

theorem measure_later (s after : Loop) (kept : after.duration = s.duration) (later : s.clock ≤ after.clock)
    (less : after.queuedCount < s.queuedCount ∨ (after.queuedCount = s.queuedCount ∧ after.phase < s.phase)) :
    after.measure < s.measure := by
  have left : after.left ≤ s.left := by
    unfold Loop.left
    rw [kept]
    omega
  unfold measure
  rw [Prod.Lex.toLex_lt_toLex,Prod.Lex.toLex_lt_toLex]
  rcases left.lt_or_eq with sooner | same
  · exact Or.inl sooner
  · exact Or.inr ⟨same,less⟩

theorem measure_slept (s after : Loop) (left : after.left < s.left) : after.measure < s.measure := by
  unfold measure
  rw [Prod.Lex.toLex_lt_toLex]
  exact Or.inl left

theorem total_update (pending : (op : DhtOperation) → List (DhtEvent op)) (op : DhtOperation) (event : DhtEvent op)
    (rest : List (DhtEvent op)) (next : pending op = event :: rest) :
    total (Function.update pending op rest) + 1 = total pending := by
  unfold total
  cases op <;> simp only [Function.update_self,Function.update_of_ne,next,List.length_cons,ne_eq,reduceCtorEq,
    not_false_eq_true] <;> omega

theorem total_add (first second both : (op : DhtOperation) → List (DhtEvent op))
    (each : ∀ op, (first op).length + (second op).length = (both op).length) :
    total first + total second = total both := by
  have join := each .join
  have leave := each .leave
  have put := each .put
  have get := each .get
  unfold total
  omega

theorem total_pos (events : (op : DhtOperation) → List (DhtEvent op)) (op : DhtOperation) (event : DhtEvent op)
    (member : event ∈ events op) : 0 < total events := by
  have here := List.length_pos_of_mem member
  unfold total
  cases op <;> omega

section
variable [heap : StdHeap]

theorem popBatch_count (s : Loop) (pending : (op : DhtOperation) → List (DhtEvent op))
    (popped : s.popBatch.pc = .batch s.elapsed pending) : s.popBatch.queuedCount + total pending = s.queuedCount := by
  cases popped
  apply total_add _ _ _
  intro op
  by_cases mode : op ∈ modeOperations s.dhtNode.connected
  · have left : s.popBatch.profile op = ((s.profile op).getEvents s.elapsed).2 := if_pos mode
    have perm := PriorityQueue.popUpTo_perm (s.profile op).eventQueue s.elapsed.toNat
    rw [queued,left,if_pos mode,queued,← perm.length_eq,List.length_append]
    exact Nat.add_comm _ _
  · have left : s.popBatch.profile op = s.profile op := if_neg mode
    rw [queued,left,if_neg mode]
    exact Nat.add_zero _

/-- A wait of some seconds lets the clock run on by as many at least. -/
def Slept (before after : Loop) : Prop :=
  Step before after ∧ ∀ toWait, before.pc = .sleeping toWait → before.clock + toWait.toNat * 1000000 ≤ after.clock

/-- What a pass of the loop comes to: it returns, it takes a due event off its queue, or it
waits, for the seconds until the next event or for all that remain. -/
def Progress (s after : Loop) : Prop :=
  after.pc = .ended .returned ∨
    (∃ poppedAt pending op event, after.pc = .batch poppedAt pending ∧ event ∈ pending op ∧ event ∈ s.queued op ∧
      event.time ≤ poppedAt ∧ after.queuedCount < s.queuedCount) ∨
    ∃ toWait, after.pc = .sleeping toWait ∧ toWait ≠ 0 ∧
      ((after.nextEvent ≠ 0 ∧ after.elapsed.toNat + toWait.toNat = after.nextEvent.toNat) ∨
        (after.nextEvent = 0 ∧ (toWait.toNat : Int) = after.remaining))

/-- The profiles stay as they were made, and a wait is one before the end of the run. -/
structure Steady (s : Loop) : Prop where
  fixed : ∀ op, (s.profile op).kind.Fixed
  paced : Paced s
  sleeping : ∀ toWait, s.pc = .sleeping toWait → toWait ≠ 0 ∧ s.clock < s.duration.toNat * 1000000
  sound : ∀ fault, s.pc ≠ .ended (.fault fault)

omit heap in
theorem waitsFor_spec (s : Loop) (reading : Nat) (polled : Polled) (more : (s.readClock reading).timeUp = false)
    (early : ((s.readClock reading).refresh polled).nextEvent ≠ 0 →
      (s.readClock reading).elapsed < ((s.readClock reading).refresh polled).nextEvent) :
    let waits := (s.readClock reading).refresh polled
    waits.waitsFor ≠ 0 ∧
      ((waits.nextEvent ≠ 0 ∧ waits.elapsed.toNat + waits.waitsFor.toNat = waits.nextEvent.toNat) ∨
        (waits.nextEvent = 0 ∧ (waits.waitsFor.toNat : Int) = waits.remaining)) := by
  intro waits
  have checked := readClock_checked s reading more
  have positive := checked.positive
  have total := checked.total
  have limit := s.duration.toNat_lt
  have known : (s.readClock reading).duration = s.duration := rfl
  have same : waits.elapsed = (s.readClock reading).elapsed := rfl
  by_cases some : waits.nextEvent ≠ 0
  · have soon := early some
    have wait : waits.waitsFor = waits.nextEvent - waits.elapsed := if_pos some
    have difference := UInt32.toNat_sub_of_le _ _ (UInt32.le_of_lt soon)
    have below := UInt32.lt_iff_toNat_lt.mp soon
    rw [wait,same]
    refine ⟨fun zero => ?_,Or.inl ⟨some,?_⟩⟩
    · have none := congrArg UInt32.toNat zero
      rw [difference] at none
      simp only [UInt32.toNat_zero] at none
      omega
    · rw [difference]
      exact Nat.add_sub_cancel' below.le
  · have wait : waits.waitsFor = UInt32.ofInt (s.readClock reading).remaining := if_neg some
    rw [known] at total
    have value := ofInt_toNat (s.readClock reading).remaining (by omega) (by omega)
    rw [wait]
    refine ⟨fun zero => ?_,Or.inr ⟨not_not.mp some,value⟩⟩
    rw [zero] at value
    simp only [UInt32.toNat_zero] at value
    omega

omit heap in
theorem checked_before_end (s : Loop) (reading : Nat) (more : (s.readClock reading).timeUp = false) :
    reading < s.duration.toNat * 1000000 := by
  have checked := readClock_checked s reading more
  have positive := checked.positive
  have total := checked.total
  have reached := checked.reached
  have known : (s.readClock reading).duration = s.duration := rfl
  rw [known] at total
  omega

theorem refresh_steady (s : Loop) (reading : Nat) (polled : Polled) (fixed : ∀ op, (s.profile op).kind.Fixed)
    (ok : s.workload.getNextEventTime (s.readClock reading).elapsed s.dhtNode.connected s.draws = .ok polled) :
    ((s.readClock reading).refresh polled).profile = s.profile ∧
      ∃ op ∈ modeOperations s.dhtNode.connected, (s.profile op).eventQueue.getNextEventTime = polled.time := by
  obtain ⟨time,polls,op,mode,front⟩ := s.workload.getNextEventTime_fixed fixed (s.readClock reading).elapsed
    s.dhtNode.connected s.draws
  cases polls.symm.trans ok
  exact ⟨rfl,op,mode,front⟩

omit heap in
theorem queued_same (s other : Loop) (same : s.profile = other.profile) : s.queued = other.queued := by
  ext1 op
  rw [queued,queued,same]

theorem popped_progress (s : Loop) (reading : Nat) (polled : Polled) (fixed : ∀ op, (s.profile op).kind.Fixed)
    (ok : s.workload.getNextEventTime (s.readClock reading).elapsed s.dhtNode.connected s.draws = .ok polled)
    (some : ((s.readClock reading).refresh polled).nextEvent ≠ 0)
    (due : ((s.readClock reading).refresh polled).nextEvent ≤ (s.readClock reading).elapsed) :
    (∃ pending op event, ((s.readClock reading).refresh polled).popBatch.pc = .batch (s.readClock reading).elapsed pending ∧
        event ∈ pending op ∧ event ∈ s.queued op ∧ event.time ≤ (s.readClock reading).elapsed) ∧
      ((s.readClock reading).refresh polled).popBatch.queuedCount < s.queuedCount := by
  obtain ⟨same,op,mode,front⟩ := refresh_steady s reading polled fixed ok
  obtain ⟨pending,batch,all⟩ := popBatch_pending ((s.readClock reading).refresh polled)
  have counted := popBatch_count ((s.readClock reading).refresh polled) pending batch
  have queues : ((s.readClock reading).refresh polled).queued = s.queued := queued_same _ s same
  have next : ((s.readClock reading).refresh polled).nextEvent = polled.time := by
    refine if_neg fun far => some ?_
    exact if_pos far
  rw [next] at some due
  obtain ⟨event,member,time⟩ := EventQueue.getNextEventTime_queued (s.profile op).eventQueue (front.symm ▸ some)
  have timely : event.time ≤ (s.readClock reading).elapsed := (time.trans front).symm ▸ due
  have popped := (all op event).mpr ⟨mode,by rw [queues]; exact member,timely⟩
  have positive := total_pos pending op event popped
  have count : ((s.readClock reading).refresh polled).queuedCount = s.queuedCount := congrArg total queues
  rw [count] at counted
  exact ⟨⟨pending,op,event,batch,popped,member,timely⟩,by omega⟩

theorem slept_decreases (s after : Loop) (steady : Steady s) (slept : Slept s after) : after.measure < s.measure := by
  obtain ⟨step,wait⟩ := slept
  obtain ⟨later,kept⟩ := step_clock s after step
  have moves := step_moves s after step
  have smaller := measure_later s after kept later
  cases moves with
  | expired reading here up => exact smaller (Or.inr ⟨rfl,by simp [phase,here]⟩)
  | failed reading fault here => exact smaller (Or.inr ⟨rfl,by simp [phase,here]⟩)
  | refused poppedAt pending op attempts fault here busy returned =>
    exact smaller (Or.inr ⟨rfl,by simp [phase,here]⟩)
  | popped reading polled here _ more ok some due =>
    have fewer := (popped_progress s reading polled steady.fixed ok some due).2
    exact smaller (Or.inl fewer)
  | waits reading polled here _ more ok early =>
    have same := (refresh_steady s reading polled steady.fixed ok).1
    exact smaller (Or.inr ⟨congrArg total (queued_same _ s same),by simp [phase,here]⟩)
  | handled poppedAt pending op event rest attempts node reading pc here first next returned _ check =>
    have fewer := total_update pending op event rest next
    rcases check with ⟨_,rfl⟩ | ⟨_,rfl⟩
    · exact smaller (Or.inr ⟨rfl,by simp [phase,here,ran]⟩)
    · exact smaller (Or.inr ⟨rfl,by simp [phase,here,ran]; omega⟩)
  | batchDone poppedAt pending here empty =>
    have due := steady.paced.due poppedAt pending here
    rw [afterEvents_due s due.1 due.2] at smaller ⊢
    exact smaller (Or.inr ⟨rfl,by simp [phase,here]⟩)
  | wake toWait reading here _ =>
    obtain ⟨some,inside⟩ := steady.sleeping toWait here
    have slept := wait toWait here
    apply measure_slept
    have positive : toWait.toNat ≠ 0 := fun zero => some (UInt32.toNat_inj.mp zero)
    unfold left
    rw [kept]
    omega

theorem step_sound (s after : Loop) (fixed : ∀ op, (s.profile op).kind.Fixed) (step : Step s after) (fault : Fault) :
    after.pc ≠ .ended (.fault fault) := by
  have waits (t : Loop) : t.afterEvents.pc ≠ .ended (.fault fault) := by
    rcases afterEvents_cases t with same | ⟨toWait,same⟩
    · rw [same]
      nofun
    · rw [same]
      nofun
  cases step with
  | pass reading here later =>
    cases up : (s.readClock reading).timeUp with
    | true =>
      rw [pass_up s reading up]
      nofun
    | false =>
      rw [pass_more s reading up]
      obtain ⟨time,polls,_⟩ := s.workload.getNextEventTime_fixed fixed (s.readClock reading).elapsed
        s.dhtNode.connected s.draws
      generalize (⟨s.workload.profile,time,fun _ => [],s.draws⟩ : Polled) = polled at polls
      by_cases due : ((s.readClock reading).refresh polled).elapsed ≥ ((s.readClock reading).refresh polled).nextEvent ∧
          ((s.readClock reading).refresh polled).nextEvent ≠ 0
      · rw [poll_due (s.readClock reading) polled polls due.2 due.1]
        nofun
      · rw [poll_early (s.readClock reading) polled polls due]
        exact waits _
  | event poppedAt pending op event rest attempts result reading here first next returned later =>
    cases result with
    | error fault => nofun
    | ok node =>
      cases up : (s.readClock reading).timeUp with
      | true =>
        rw [afterEvent_over s poppedAt pending event rest node reading up]
        nofun
      | false =>
        rw [afterEvent_more s poppedAt pending event rest node reading up]
        nofun
  | batchDone poppedAt pending here empty => exact waits s
  | wake toWait reading here later => nofun

theorem slept_steady (s after : Loop) (steady : Steady s) (step : Step s after) : Steady after := by
  have moves := step_moves s after step
  have paced := moves_paced s after steady.paced moves
  have fixed := steady.fixed
  have sound := step_sound s after fixed step
  cases moves with
  | expired reading here up => exact ⟨fixed,paced,nofun,sound⟩
  | failed reading fault here => exact ⟨fixed,paced,nofun,sound⟩
  | refused poppedAt pending op attempts fault here busy returned => exact ⟨fixed,paced,nofun,sound⟩
  | popped reading polled here later more ok some due =>
    have same := (refresh_steady s reading polled fixed ok).1
    refine ⟨fun op => ?_,paced,nofun,sound⟩
    have kind : (((s.readClock reading).refresh polled).popBatch.profile op).kind =
        (((s.readClock reading).refresh polled).profile op).kind := by
      by_cases mode : op ∈ modeOperations s.dhtNode.connected
      · have popped : ((s.readClock reading).refresh polled).popBatch.profile op =
            ((((s.readClock reading).refresh polled).profile op).getEvents (s.readClock reading).elapsed).2 := if_pos mode
        rw [popped]
        rfl
      · exact congrArg Profile.kind (if_neg mode)
    rw [kind,same]
    exact fixed op
  | waits reading polled here later more ok early =>
    have same := (refresh_steady s reading polled fixed ok).1
    refine ⟨fun op => ?_,paced,?_,sound⟩
    · change (((s.readClock reading).refresh polled).profile op).kind.Fixed
      rw [same]
      exact fixed op
    · rintro toWait ⟨⟩
      exact ⟨(waitsFor_spec s reading polled more early).1,checked_before_end s reading more⟩
  | handled poppedAt pending op event rest attempts node reading pc here first next returned later check =>
    rcases check with ⟨_,rfl⟩ | ⟨_,rfl⟩
    · exact ⟨fixed,paced,nofun,sound⟩
    · exact ⟨fixed,paced,nofun,sound⟩
  | batchDone poppedAt pending here empty =>
    have due := steady.paced.due poppedAt pending here
    rw [afterEvents_due s due.1 due.2] at paced sound ⊢
    exact ⟨fixed,paced,nofun,sound⟩
  | wake toWait reading here later => exact ⟨fixed,paced,nofun,sound⟩

theorem pass_progress (s after : Loop) (steady : Steady s) (step : Step s after) (head : s.pc = .head) :
    Progress s after := by
  have moves := step_moves s after step
  have sound := step_sound s after steady.fixed step
  cases moves with
  | expired reading here up => exact Or.inl rfl
  | failed reading fault here => exact absurd rfl (sound fault)
  | popped reading polled here later more ok some due =>
    obtain ⟨⟨pending,op,event,batch,member,queued,timely⟩,fewer⟩ :=
      popped_progress s reading polled steady.fixed ok some due
    exact Or.inr (Or.inl ⟨_,pending,op,event,batch,member,queued,timely,fewer⟩)
  | waits reading polled here later more ok early =>
    obtain ⟨positive,seconds⟩ := waitsFor_spec s reading polled more early
    exact Or.inr (Or.inr ⟨_,rfl,positive,seconds⟩)
  | refused poppedAt pending op attempts fault here busy returned => cases head.symm.trans here
  | handled poppedAt pending op event rest attempts node reading pc here first next returned later check =>
    cases head.symm.trans here
  | batchDone poppedAt pending here empty => cases head.symm.trans here
  | wake toWait reading here later => cases head.symm.trans here

omit heap in
theorem batch_first (pending : (op : DhtOperation) → List (DhtEvent op)) : (∀ op, pending op = []) ∨
    ∃ op event rest, pending op = event :: rest ∧ ∀ other, turn other < turn op → pending other = [] := by
  cases put : pending .put with
  | cons event rest => exact Or.inr ⟨.put,event,rest,put,fun other less => by cases other <;> simp [turn] at less⟩
  | nil =>
    cases get : pending .get with
    | cons event rest => exact Or.inr ⟨.get,event,rest,get,fun other less => by cases other <;> simp [turn,put] at less ⊢⟩
    | nil =>
      cases leave : pending .leave with
      | cons event rest =>
        exact Or.inr ⟨.leave,event,rest,leave,fun other less => by cases other <;> simp [turn,put,get] at less ⊢⟩
      | nil =>
        cases join : pending .join with
        | cons event rest =>
          exact Or.inr ⟨.join,event,rest,join,fun other less => by cases other <;> simp [turn,put,get,leave] at less ⊢⟩
        | nil => exact Or.inl fun op => by cases op <;> assumption

omit heap in
theorem processEvent_returns (op : DhtOperation) (node : DhtNode) :
    ∃ attempts result, DhtNode.processEvent op node attempts = some result := by
  refine ⟨[⟨true,0,0,0⟩],?_⟩
  cases op <;> cases connected : node.connected <;>
    simp [DhtNode.processEvent,DhtNode.processJoinEvent,DhtNode.processLeaveEvent,DhtNode.processPutEvent,
      DhtNode.processGetEvent,DhtNode.joinLoop,connected]

theorem slept_next (s : Loop) (running : ∀ ending, s.pc ≠ .ended ending) : ∃ after, Slept s after := by
  cases pc : s.pc with
  | head => exact ⟨_,.pass s s.clock pc (Nat.le_refl _),fun toWait here => by cases pc.symm.trans here⟩
  | sleeping toWait =>
    refine ⟨_,.wake s toWait (s.clock + toWait.toNat * 1000000) pc (Nat.le_add_right _ _),fun other here => ?_⟩
    cases pc.symm.trans here
    exact Nat.le_refl _
  | ended ending => exact absurd pc (running ending)
  | batch poppedAt pending =>
    have awake : ∀ toWait, s.pc = .sleeping toWait → False := fun toWait here => by cases pc.symm.trans here
    rcases batch_first pending with empty | ⟨op,event,rest,next,first⟩
    · exact ⟨_,.batchDone s poppedAt pending pc empty,fun toWait here => (awake toWait here).elim⟩
    · obtain ⟨attempts,result,returned⟩ := processEvent_returns op s.dhtNode
      exact ⟨_,.event s poppedAt pending op event rest attempts result s.clock pc first next returned (Nat.le_refl _),
        fun toWait here => (awake toWait here).elim⟩

omit heap in
theorem enter_steady (profile : (op : DhtOperation) → Profile op) (fixed : ∀ op, (profile op).kind.Fixed)
    (duration : TimeUnit) (draws : Draws) : Steady (enter profile duration draws) :=
  ⟨fixed,enter_paced profile duration draws,nofun,nofun⟩

/-- `start` comes to an end: there is no endless run, a run that has not ended goes on as
soon as the call it is in returns, and each pass of the loop makes progress. -/
theorem start_terminates (profile : (op : DhtOperation) → Profile op) (fixed : ∀ op, (profile op).kind.Fixed)
    (duration : TimeUnit) (draws : Draws) :
    (∀ path : Nat → Loop, path 0 = enter profile duration draws → ¬∀ n, Slept (path n) (path (n+1))) ∧
      ∀ s, ReflTransGen Slept (enter profile duration draws) s →
        (s.pc = .ended .returned ∨ s.pc = .ended .wrongMode ∨ ∃ after, Slept s after) ∧
        ∀ after, Slept s after → s.pc = .head → Progress s after := by
  have entered := enter_steady profile fixed duration draws
  constructor
  · intro path first
    exact no_endless_run measure (fun before after steady slept => slept_steady before after steady slept.1)
      slept_decreases path (first ▸ entered)
  · intro s run
    have steady := run_invariant run entered fun before after steady slept => slept_steady before after steady slept.1
    refine ⟨?_,fun after slept => pass_progress s after steady slept.1⟩
    cases pc : s.pc with
    | ended ending =>
      cases ending with
      | returned => exact Or.inl rfl
      | wrongMode => exact Or.inr (Or.inl rfl)
      | fault fault => exact absurd pc (steady.sound fault)
    | head => exact Or.inr (Or.inr (slept_next s fun ending ended => by cases pc.symm.trans ended))
    | sleeping toWait => exact Or.inr (Or.inr (slept_next s fun ending ended => by cases pc.symm.trans ended))
    | batch poppedAt pending => exact Or.inr (Or.inr (slept_next s fun ending ended => by cases pc.symm.trans ended))

end

theorem joining_terminates : startJoining (ascii "exact 3") 10 = .ok (joining [3] 10) ∧
    ∀ path : Nat → Loop, path 0 = joining [3] 10 → ¬∀ n, @Slept plainHeap (path n) (path (n+1)) :=
  ⟨rfl,(@start_terminates plainHeap (joining [3] 10).workload.profile (fun op => by cases op <;> trivial) 10
    fun _ => 0).1⟩

end Loop
end Dhtperf
