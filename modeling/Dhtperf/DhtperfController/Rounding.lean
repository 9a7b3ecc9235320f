import Dhtperf.DhtperfController.Modes

/-! What rounding does to a run. The seconds that remain are cut, so the elapsed ones are
rounded up: an event that lies less than a second ahead is due, and the run is over when
less than a second remains. -/
namespace Dhtperf
open Library Relation

def DhtEvent.instant {op : DhtOperation} (event : DhtEvent op) : Nat := event.time.toNat * 1000000

namespace Loop

def deadline (s : Loop) : Nat := s.duration.toNat * 1000000

theorem timeUp_iff (s : Loop) (reading : Nat) :
    (s.readClock reading).timeUp = true ↔ s.deadline < reading + 1000000 := by
  constructor
  · intro up
    by_contra before
    have limit := s.duration.toNat_lt
    have inside : (0 : Int) ≤ (s.duration.toNat : Int) * 1000000 - reading := by
      unfold deadline at before
      omega
    have kept : (s.readClock reading).duration = s.duration := rfl
    have seconds : (s.readClock reading).remaining = ((s.duration.toNat : Int) * 1000000 - reading) / 1000000 :=
      totalSeconds_nonneg _ inside
    have passed : ((s.readClock reading).elapsed.toNat : Int) = s.duration.toNat - (s.readClock reading).remaining :=
      ofInt_toNat (s.duration.toNat - (s.readClock reading).remaining) (by omega) (by omega)
    simp only [timeUp,kept,Bool.or_eq_true,decide_eq_true_eq,ge_iff_le,UInt32.le_iff_toNat_le] at up
    unfold deadline at before
    omega
  · intro last
    by_contra more
    have checked := readClock_checked s reading (by simpa using more)
    have positive := checked.positive
    have total := checked.total
    have reached := checked.reached
    have known : (s.readClock reading).duration = s.duration := rfl
    rw [known] at total
    unfold deadline at last
    omega

section
variable [heap : StdHeap]

def LastSecond (s : Loop) (reading : Nat) : Prop := reading < s.deadline ∧ s.deadline < reading + 1000000

/-- A pass pops events, and one that it sees is less than a second ahead. -/
def PopsAhead (s : Loop) (reading : Nat) : Prop :=
  reading + 1000000 ≤ s.deadline ∧ ∃ polled,
    s.workload.getNextEventTime (s.readClock reading).elapsed s.dhtNode.connected s.draws = .ok polled ∧
    polled.time ≠ 0 ∧ polled.time ≤ s.duration ∧ polled.time ≤ (s.readClock reading).elapsed ∧
    ∃ op ∈ modeOperations s.dhtNode.connected, ∃ event ∈ (polled.profile op).eventQueue.elements,
      reading < event.instant ∧ event.instant < reading + 1000000

/-- A step whose reading of the clock may be rounded up. -/
def Harmless (s after : Loop) : Prop :=
  ((∀ toWait, s.pc ≠ .sleeping toWait) → ¬LastSecond s after.clock) ∧ (s.pc = .head → ¬PopsAhead s after.clock)

/-- What is run is run at its time or later, and a return comes at the end or later. -/
def OnTime (s after : Loop) : Prop :=
  (∀ op run, after.executed op = s.executed op ++ [run] → run.event.instant ≤ s.clock) ∧
    (after.pc = .ended .returned → s.deadline ≤ after.clock)

/-- The run has ended too early, or an event is to be run before its time. -/
def Early (s after : Loop) : Prop :=
  (after.pc = .ended .returned ∧ after.clock < s.deadline) ∨
    ∃ poppedAt pending op event, after.pc = .batch poppedAt pending ∧ event ∈ pending op ∧ after.clock < event.instant

/-- A batch was popped before the last second, and holds only events whose time has come. -/
structure Timely (s : Loop) : Prop where
  paced : Paced s
  going : ∀ poppedAt pending, s.pc = .batch poppedAt pending → s.clock + 1000000 ≤ s.deadline
  come : ∀ poppedAt pending, s.pc = .batch poppedAt pending → ∀ op, ∀ event ∈ pending op, event.instant ≤ s.clock

omit heap in
theorem going_on (s : Loop) (reading : Nat) (more : (s.readClock reading).timeUp = false) :
    reading + 1000000 ≤ s.deadline := by
  by_contra last
  have up := (timeUp_iff s reading).mpr (Nat.not_le.mp last)
  rw [more] at up
  cases up

theorem popBatch_spec (s : Loop) (poppedAt : TimeUnit) (pending : (op : DhtOperation) → List (DhtEvent op))
    (batch : s.popBatch.pc = .batch poppedAt pending) : poppedAt = s.elapsed ∧ ∀ op event,
      event ∈ pending op ↔ op ∈ modeOperations s.dhtNode.connected ∧ event ∈ s.queued op ∧ event.time ≤ s.elapsed := by
  obtain ⟨popped,there,all⟩ := popBatch_pending s
  cases there.symm.trans batch
  exact ⟨rfl,all⟩

theorem popped_timely (s : Loop) (reading : Nat) (polled : Polled) (more : (s.readClock reading).timeUp = false)
    (ok : s.workload.getNextEventTime (s.readClock reading).elapsed s.dhtNode.connected s.draws = .ok polled)
    (some : ((s.readClock reading).refresh polled).nextEvent ≠ 0)
    (due : ((s.readClock reading).refresh polled).nextEvent ≤ (s.readClock reading).elapsed)
    (harmless : ¬PopsAhead s reading) (poppedAt : TimeUnit) (pending : (op : DhtOperation) → List (DhtEvent op))
    (batch : ((s.readClock reading).refresh polled).popBatch.pc = .batch poppedAt pending) (op : DhtOperation)
    (event : DhtEvent op) (member : event ∈ pending op) : event.instant ≤ reading := by
  by_contra ahead
  apply harmless
  have checked := readClock_checked s reading more
  have near : ((s.readClock reading).refresh polled).nextEvent = polled.time ∧ polled.time ≤ s.duration := by
    by_cases far : polled.time > s.duration
    · exact absurd (if_pos far) some
    · exact ⟨if_neg far,UInt32.not_lt.mp far⟩
  obtain ⟨known,all⟩ := popBatch_spec _ poppedAt pending batch
  obtain ⟨mode,queued,popped⟩ := (all op event).mp member
  rw [near.1] at some due
  have early : event.instant ≤ (s.readClock reading).elapsed.toNat * 1000000 :=
    Nat.mul_le_mul_right 1000000 (UInt32.le_iff_toNat_le.mp popped)
  exact ⟨going_on s reading more,polled,ok,some,near.2,due,op,mode,event,queued,Nat.not_le.mp ahead,
    Nat.lt_of_le_of_lt early checked.close⟩

omit heap in
theorem returned_late (s : Loop) (reading : Nat) (up : (s.readClock reading).timeUp = true)
    (early : ¬LastSecond s reading) : s.deadline ≤ reading := by
  have last := (timeUp_iff s reading).mp up
  by_contra before
  exact early ⟨Nat.not_le.mp before,last⟩

omit heap in
theorem idle_on_time (s after : Loop) (same : after.executed = s.executed)
    (late : after.pc = .ended .returned → s.deadline ≤ after.clock) : OnTime s after := by
  refine ⟨fun op run more => ?_,late⟩
  rw [same] at more
  exact absurd (congrArg List.length more) (by simp)

omit heap in
theorem ran_on_time (s : Loop) (timely : Timely s) (poppedAt : TimeUnit)
    (pending : (op : DhtOperation) → List (DhtEvent op)) (op : DhtOperation) (event : DhtEvent op) (rest : List (DhtEvent op)) (node : DhtNode) (reading : Nat) (pc : Pc)
    (here : s.pc = .batch poppedAt pending) (next : pending op = event :: rest)
    (late : pc = .ended .returned → s.deadline ≤ reading) : OnTime s (s.ran poppedAt event node reading pc) := by
  refine ⟨fun other run more => ?_,late⟩
  by_cases same : other = op
  · subst same
    rw [ran_executed] at more
    cases List.singleton_inj.mp (List.append_cancel_left more)
    exact timely.come poppedAt pending here other event (by rw [next]; exact List.mem_cons_self)
  · rw [ran_other s poppedAt event node reading pc other same] at more
    exact absurd (congrArg List.length more) (by simp)

theorem moves_timely (s after : Loop) (timely : Timely s) (moves : Moves s after) (harmless : Harmless s after) :
    Timely after ∧ OnTime s after := by
  have paced := moves_paced s after timely.paced moves
  cases moves with
  | expired reading here up =>
    have late := returned_late s reading up (harmless.1 (by simp [here]))
    exact ⟨⟨paced,nofun,nofun⟩,idle_on_time s _ rfl fun _ => late⟩
  | failed reading fault here => exact ⟨⟨paced,nofun,nofun⟩,idle_on_time s _ rfl nofun⟩
  | refused poppedAt pending op attempts fault here busy returned =>
    exact ⟨⟨paced,nofun,nofun⟩,idle_on_time s _ rfl nofun⟩
  | popped reading polled here later more ok some due =>
    have come := popped_timely s reading polled more ok some due (harmless.2 here)
    exact ⟨⟨paced,fun _ _ _ => going_on s reading more,come⟩,idle_on_time s _ rfl nofun⟩
  | waits reading polled here later more ok early => exact ⟨⟨paced,nofun,nofun⟩,idle_on_time s _ rfl nofun⟩
  | handled poppedAt pending op event rest attempts node reading pc here first next returned later check =>
    have runs := ran_on_time s timely poppedAt pending op event rest node reading pc here next
    rcases check with ⟨up,rfl⟩ | ⟨more,rfl⟩
    · have late := returned_late s reading up (harmless.1 (by simp [here]))
      exact ⟨⟨paced,nofun,nofun⟩,runs fun _ => late⟩
    · refine ⟨⟨paced,fun _ _ _ => going_on s reading more,?_⟩,runs nofun⟩
      rintro _ _ ⟨⟩ other left member
      have come := timely.come poppedAt pending here other left (mem_rest pending event rest next other left member)
      exact Nat.le_trans come later
  | batchDone poppedAt pending here empty =>
    have due := timely.paced.due poppedAt pending here
    rw [afterEvents_due s due.1 due.2] at paced ⊢
    exact ⟨⟨paced,nofun,nofun⟩,idle_on_time s _ rfl nofun⟩
  | wake toWait reading here later => exact ⟨⟨paced,nofun,nofun⟩,idle_on_time s _ rfl nofun⟩

theorem harmful_cases (s after : Loop) (harmful : ¬Harmless s after) :
    ((∀ toWait, s.pc ≠ .sleeping toWait) ∧ LastSecond s after.clock) ∨ (s.pc = .head ∧ PopsAhead s after.clock) := by
  by_contra neither
  rw [not_or] at neither
  exact harmful ⟨fun awake last => neither.1 ⟨awake,last⟩,fun head ahead => neither.2 ⟨head,ahead⟩⟩

omit heap in
theorem batch_not_last (s : Loop) (timely : Timely s) (poppedAt : TimeUnit)
    (pending : (op : DhtOperation) → List (DhtEvent op)) (here : s.pc = .batch poppedAt pending) :
    ¬LastSecond s s.clock :=
  fun last => absurd last.2 (Nat.not_lt.mpr (timely.going poppedAt pending here))

theorem pass_ahead (s : Loop) (reading : Nat) (ahead : PopsAhead s reading) : ∃ poppedAt pending op event,
    (s.pass reading).pc = .batch poppedAt pending ∧ event ∈ pending op ∧ reading < event.instant := by
  obtain ⟨before,polled,ok,some,near,due,op,mode,event,queued,future,close⟩ := ahead
  have more : (s.readClock reading).timeUp = false := by
    rw [← Bool.not_eq_true,timeUp_iff]
    exact Nat.not_lt.mpr before
  have reached := (readClock_checked s reading more).reached
  have next : ((s.readClock reading).refresh polled).nextEvent = polled.time := if_neg (UInt32.not_lt.mpr near)
  have pops : s.pass reading = ((s.readClock reading).refresh polled).popBatch := by
    rw [pass_more s reading more]
    exact poll_due _ polled ok (next ▸ some) (next ▸ due)
  obtain ⟨pending,batch,all⟩ := popBatch_pending ((s.readClock reading).refresh polled)
  have early : event.time ≤ (s.readClock reading).elapsed := by
    unfold DhtEvent.instant at close
    rw [UInt32.le_iff_toNat_le]
    omega
  exact ⟨_,pending,op,event,by rw [pops,batch],(all op event).mpr ⟨mode,queued,early⟩,future⟩

theorem harmful_early (s after : Loop) (timely : Timely s) (step : Step s after) (harmful : ¬Harmless s after) :
    Early s after := by
  cases step with
  | pass reading here later =>
    have clock := (pass_clock s reading).1
    rcases harmful_cases s _ harmful with ⟨_,last⟩ | ⟨_,ahead⟩
    · rw [clock] at last
      have up := (timeUp_iff s reading).mpr last.2
      refine Or.inl ⟨by rw [pass_up s reading up],?_⟩
      rw [clock]
      exact last.1
    · rw [clock] at ahead
      obtain ⟨poppedAt,pending,op,event,batch,member,future⟩ := pass_ahead s reading ahead
      exact Or.inr ⟨poppedAt,pending,op,event,batch,member,by rw [clock]; exact future⟩
  | event poppedAt pending op event rest attempts result reading here first next returned later =>
    rcases harmful_cases s _ harmful with ⟨_,last⟩ | ⟨head,_⟩
    · cases result with
      | error fault => exact absurd last (batch_not_last s timely poppedAt pending here)
      | ok node =>
        -- The clock after the event is the reading, whichever way the check goes.
        cases up : (s.readClock reading).timeUp with
        | true =>
          rw [afterEvent_over s poppedAt pending event rest node reading up] at last ⊢
          exact Or.inl ⟨rfl,last.1⟩
        | false =>
          rw [afterEvent_more s poppedAt pending event rest node reading up] at last
          exact absurd last.2 (Nat.not_lt.mpr (going_on s reading up))
    · cases head.symm.trans here
  | batchDone poppedAt pending here empty =>
    rcases harmful_cases s _ harmful with ⟨_,last⟩ | ⟨head,_⟩
    · rw [(afterEvents_clock s).1] at last
      exact absurd last (batch_not_last s timely poppedAt pending here)
    · cases head.symm.trans here
  | wake toWait reading here later =>
    rcases harmful_cases s _ harmful with ⟨awake,_⟩ | ⟨head,_⟩
    · exact absurd here (awake toWait)
    · cases head.symm.trans here

theorem run_timely (first s : Loop) (timely : Timely first)
    (run : ReflTransGen (fun before after => Step before after ∧ Harmless before after) first s) : Timely s := by
  apply run_invariant run timely
  intro before after timely step
  exact (moves_timely before after timely (step_moves before after step.1) step.2).1

/-- In every run whose readings of the clock are harmless, events are run at their time or
later and the return comes at the end or later; any other reading is too early for one. -/
theorem on_time (accepts : Distributions) (join leave put get : Bytes) (duration : TimeUnit) (draws : Draws)
    (first s : Loop) (accepted : start accepts join leave put get duration draws = .ok first)
    (run : ReflTransGen (fun before after => Step before after ∧ Harmless before after) first s) (after : Loop)
    (step : Step s after) : (Harmless s after → OnTime s after) ∧ (¬Harmless s after → Early s after) := by
  obtain ⟨profile,draws,rfl,_⟩ := start_enters accepts join leave put get duration draws first accepted
  have timely := run_timely _ s ⟨enter_paced profile duration draws,nofun,nofun⟩ run
  exact ⟨fun harmless => (moves_timely s after timely (step_moves s after step) harmless).2,
    harmful_early s after timely step⟩

end

theorem fifth_popped (reading : Nat) (here : reading = 4300000 ∨ reading = 5000000) :
    ∃ poppedAt pending, (@pass plainHeap (joining [5] 10) reading).pc = .batch poppedAt pending ∧
      pending .join = [⟨5,()⟩] ∧ ∀ op, op ≠ .join → pending op = [] := by
  rcases here with rfl | rfl
  · refine ⟨_,_,rfl,rfl,?_⟩
    intro op other
    cases op <;> first | rfl | exact absurd rfl other
  · refine ⟨_,_,rfl,rfl,?_⟩
    intro op other
    cases op <;> first | rfl | exact absurd rfl other

/-- The join of five seconds is run at 4.3 s, and a run of ten seconds returns at 9.5 s. -/
theorem fires_early : startJoining (ascii "exact 5") 10 = .ok (joining [5] 10) ∧
    (∃ s after poppedAt, @Run plainHeap (joining [5] 10) s ∧ @Step plainHeap s after ∧
      after.executed .join = s.executed .join ++ [⟨⟨5,()⟩,poppedAt,false⟩] ∧ after.clock = 4300000 ∧
      DhtEvent.instant (⟨5,()⟩ : DhtEvent .join) = 5000000) ∧
    ∃ s, @Run plainHeap (joining [5] 10) s ∧ s.pc = .ended .returned ∧ s.clock = 9500000 ∧ s.deadline = 10000000 := by
  let heap := plainHeap
  refine ⟨rfl,?_,?_⟩
  · have popped : Step (joining [5] 10) ((joining [5] 10).pass 4300000) := .pass _ _ rfl (Nat.zero_le _)
    obtain ⟨poppedAt,pending,here,joins,only⟩ := fifth_popped 4300000 (Or.inl rfl)
    obtain ⟨after,joined,_,_,once,clock⟩ := join_runs _ poppedAt pending ⟨5,()⟩ [] here only joins rfl (by decide)
    exact ⟨_,after,_,.single popped,joined,once,clock.trans (pass_clock _ _).1,by decide⟩
  · exact ⟨_,.single (.pass (joining [5] 10) 9500000 rfl (Nat.zero_le _)),rfl,(pass_clock _ _).1,by decide⟩

theorem fifth_on_time : startJoining (ascii "exact 5") 10 = .ok (joining [5] 10) ∧
    ∃ s after, @Run plainHeap (joining [5] 10) s ∧ @Step plainHeap s after ∧
      (after.executed .join).length = 1 ∧ OnTime s after := by
  let heap := plainHeap
  have accepted : startJoining (ascii "exact 5") 10 = .ok (joining [5] 10) := rfl
  have popped : Step (joining [5] 10) ((joining [5] 10).pass 5000000) := .pass _ _ rfl (Nat.zero_le _)
  obtain ⟨poppedAt,pending,here,joins,only⟩ := fifth_popped 5000000 (Or.inr rfl)
  have come : Harmless (joining [5] 10) ((joining [5] 10).pass 5000000) := by
    refine ⟨fun _ last => absurd last.2 (by decide),fun _ ahead => ?_⟩
    obtain ⟨_,_,op,event,batch,member,future⟩ := pass_ahead _ _ ahead
    cases batch.symm.trans here
    by_cases join : op = .join
    · subst join
      rw [joins,List.mem_singleton] at member
      subst member
      exact absurd future (by decide)
    · rw [only op join] at member
      exact absurd member List.not_mem_nil
  obtain ⟨after,joined,_,_,once,clock⟩ := join_runs _ poppedAt pending ⟨5,()⟩ [] here only joins rfl (by decide)
  have middle : Harmless ((joining [5] 10).pass 5000000) after := by
    refine ⟨fun _ last => ?_,fun head => ?_⟩
    · rw [clock] at last
      exact absurd last.2 (by decide)
    · cases head.symm.trans here
  have kept := on_time _ _ _ _ _ _ _ _ _ accepted (.single ⟨popped,come⟩) after joined
  exact ⟨accepted,_,after,.single popped,joined,by rw [once]; rfl,kept.1 middle⟩

end Loop
end Dhtperf
