import Dhtperf.DhtperfController.Acting
import Dhtperf.DhtperfController.Order

/-! What becomes of every event that a profile generates. It is run, waits in the batch at
hand or is queued; only the end of the loop in the middle of a batch loses any. -/
namespace Dhtperf
open Library

namespace Loop

structure Conserved (s : Loop) (dropped : (op : DhtOperation) → List (DhtEvent op)) : Prop where
  all : ∀ op, (s.seen op ++ dropped op ++ s.queued op).Perm (s.pushed op)
  going : (∀ ending, s.pc ≠ .ended ending) → ∀ op, dropped op = []
  due : ∀ op, ∀ x ∈ dropped op, x.time < s.duration
  ready : ∀ poppedAt pending, s.pc = .batch poppedAt pending → ∀ op, ∀ x ∈ pending op, x.time < s.duration

theorem checked_before (s : Loop) (reading : Nat) (checked : Checked s reading) : s.elapsed < s.duration := by
  have positive := checked.positive
  have total := checked.total
  rw [UInt32.lt_iff_toNat_lt]
  omega

theorem seen_batch (s : Loop) (op : DhtOperation) (poppedAt : TimeUnit)
    (pending : (op : DhtOperation) → List (DhtEvent op)) (here : s.pc = .batch poppedAt pending) :
    s.seen op = s.ranEvents op ++ pending op := by
  unfold seen waiting
  rw [here]

theorem ran_batch (s : Loop) (poppedAt : TimeUnit) (pending : (op : DhtOperation) → List (DhtEvent op))
    (op : DhtOperation) (event : DhtEvent op) (rest : List (DhtEvent op)) (node : DhtNode) (reading : Nat)
    (pc : Pc) (next : pending op = event :: rest) (other : DhtOperation) :
    (s.ran poppedAt event node reading pc).ranEvents other ++ Function.update pending op rest other =
      s.ranEvents other ++ pending other := by
  unfold ranEvents
  by_cases same : other = op
  · subst same
    rw [ran_executed,Function.update_self,next]
    simp
  · rw [ran_other s poppedAt event node reading pc other same,Function.update_of_ne same]

theorem idle_conserved (s after : Loop) (dropped : (op : DhtOperation) → List (DhtEvent op))
    (conserved : Conserved s dropped) (running : ∀ ending, s.pc ≠ .ended ending)
    (executed : after.executed = s.executed) (pushed : after.pushed = s.pushed) (workload : after.workload = s.workload)
    (out : ∀ poppedAt pending, after.pc ≠ .batch poppedAt pending) (none : ∀ op, s.waiting op = []) :
    Conserved after dropped := by
  have nothing := conserved.going running
  have kept : ∀ op, after.seen op = s.seen op := by
    intro op
    rw [seen_idle after op out,seen,none op,List.append_nil]
    simp [ranEvents,executed]
  refine ⟨fun op => ?_,fun _ => nothing,fun op x member => ?_,fun _ _ here => absurd here (out _ _)⟩
  · rw [kept,pushed]
    unfold queued profile
    rw [workload]
    exact conserved.all op
  · rw [nothing op] at member
    cases member

theorem waiting_idle (s : Loop) (idle : ∀ poppedAt pending, s.pc ≠ .batch poppedAt pending) (op : DhtOperation) :
    s.waiting op = [] := by
  unfold waiting
  split
  next poppedAt pending here => exact absurd here (idle poppedAt pending)
  next => rfl

theorem leaves_conserved (s after : Loop) (dropped : (op : DhtOperation) → List (DhtEvent op))
    (conserved : Conserved s dropped) (poppedAt : TimeUnit) (pending lost : (op : DhtOperation) → List (DhtEvent op))
    (here : s.pc = .batch poppedAt pending) (ending : Ending) (halted : after.pc = .ended ending)
    (parts : ∀ op, after.ranEvents op ++ lost op = s.ranEvents op ++ pending op)
    (pushed : after.pushed = s.pushed) (workload : after.workload = s.workload)
    (some : ∀ op, ∀ x ∈ lost op, x ∈ pending op) : Conserved after lost := by
  have nothing := conserved.going (by simp [here])
  refine ⟨fun op => ?_,fun running => absurd halted (running ending),fun op x member => ?_,
    fun _ _ batch => by cases batch.symm.trans halted⟩
  · have all := conserved.all op
    rw [nothing op,List.append_nil,seen_batch s op poppedAt pending here] at all
    rw [seen_idle after op (by simp [halted]),parts,pushed]
    unfold queued profile
    rw [workload]
    exact all
  · have before := conserved.ready poppedAt pending here op x (some op x member)
    unfold duration at before ⊢
    rw [workload]
    exact before

variable [heap : StdHeap]

theorem refresh_conserved (s : Loop) (dropped : (op : DhtOperation) → List (DhtEvent op))
    (conserved : Conserved s dropped) (reading : Nat) (polled : Polled) (here : s.pc = .head)
    (ok : s.workload.getNextEventTime (s.readClock reading).elapsed s.dhtNode.connected s.draws = .ok polled)
    (op : DhtOperation) :
    (s.ranEvents op ++ (polled.profile op).eventQueue.elements).Perm (s.pushed op ++ polled.pushed op) := by
  have all := conserved.all op
  rw [conserved.going (by simp [here]) op,List.append_nil,seen_idle s op (by simp [here])] at all
  have grown := ControllerWorkloadProfile.polled_perm s.workload _ _ _ polled ok op
  calc (s.ranEvents op ++ (polled.profile op).eventQueue.elements).Perm
        (s.ranEvents op ++ (s.queued op ++ polled.pushed op)) :=
      (grown.trans List.perm_append_comm).append_left _
    _ = (s.ranEvents op ++ s.queued op) ++ polled.pushed op := (List.append_assoc _ _ _).symm
    List.Perm _ (s.pushed op ++ polled.pushed op) := all.append_right _

theorem popBatch_parts (s : Loop) (op : DhtOperation) :
    (s.popBatch.waiting op ++ s.popBatch.queued op).Perm (s.queued op) := by
  by_cases mode : op ∈ modeOperations s.dhtNode.connected
  · have left : s.popBatch.profile op = ((s.profile op).getEvents s.elapsed).2 := if_pos mode
    have popped : s.popBatch.waiting op = ((s.profile op).getEvents s.elapsed).1 := if_pos mode
    unfold queued
    rw [left,popped]
    exact PriorityQueue.popUpTo_perm (s.profile op).eventQueue s.elapsed.toNat
  · have left : s.popBatch.profile op = s.profile op := if_neg mode
    have popped : s.popBatch.waiting op = [] := if_neg mode
    unfold queued
    rw [left,popped]
    exact List.Perm.refl _

theorem moves_conserved (s after : Loop) (dropped : (op : DhtOperation) → List (DhtEvent op))
    (conserved : Conserved s dropped) (moves : Moves s after) : ∃ lost, Conserved after lost := by
  have idle (after : Loop) := idle_conserved s after dropped conserved
  cases moves with
  | expired reading here up =>
    exact ⟨dropped,idle _ (by simp [here]) rfl rfl rfl (fun _ _ => nofun) (waiting_idle s (by simp [here]))⟩
  | failed reading fault here =>
    exact ⟨dropped,idle _ (by simp [here]) rfl rfl rfl (fun _ _ => nofun) (waiting_idle s (by simp [here]))⟩
  | wake toWait reading here later =>
    exact ⟨dropped,idle _ (by simp [here]) rfl rfl rfl (fun _ _ => nofun) (waiting_idle s (by simp [here]))⟩
  | batchDone poppedAt pending here empty =>
    have none : ∀ op, s.waiting op = [] := by
      intro op
      unfold waiting
      rw [here]
      exact empty op
    rcases afterEvents_cases s with same | ⟨toWait,same⟩
    · rw [same]
      exact ⟨dropped,idle _ (by simp [here]) rfl rfl rfl (fun _ _ => nofun) none⟩
    · rw [same]
      exact ⟨dropped,idle _ (by simp [here]) rfl rfl rfl (fun _ _ => nofun) none⟩
  | waits reading polled here later more ok early =>
    refine ⟨fun _ => [],fun op => ?_,fun _ _ => rfl,fun _ => nofun,nofun⟩
    rw [List.append_nil,seen_idle _ op (by intro _ _ same; cases same)]
    exact refresh_conserved s dropped conserved reading polled here ok op
  | popped reading polled here later more ok some due =>
    refine ⟨fun _ => [],fun op => ?_,fun _ _ => rfl,fun _ => nofun,?_⟩
    · rw [List.append_nil,seen,List.append_assoc]
      exact ((popBatch_parts _ op).append_left _).trans
        (refresh_conserved s dropped conserved reading polled here ok op)
    · intro poppedAt pending same op x member
      cases same
      have inside := checked_before _ reading (readClock_checked s reading more)
      exact UInt32.lt_of_le_of_lt (popBatch_due _ op x member).1 inside
  | refused poppedAt pending op attempts fault here busy returned =>
    exact ⟨pending,leaves_conserved s _ dropped conserved poppedAt pending pending here .wrongMode rfl
      (fun _ => rfl) rfl rfl fun _ _ member => member⟩
  | handled poppedAt pending op event rest attempts node reading pc here first next returned later check =>
    have parts := ran_batch s poppedAt pending op event rest node reading pc next
    have still := mem_rest pending event rest next
    rcases check with ⟨up,rfl⟩ | ⟨more,rfl⟩
    · exact ⟨_,leaves_conserved s _ dropped conserved poppedAt pending _ here .returned rfl parts rfl rfl still⟩
    · refine ⟨dropped,fun other => ?_,fun _ => conserved.going (by simp [here]),conserved.due,?_⟩
      · have all := conserved.all other
        rw [seen_batch s other poppedAt pending here,← parts other] at all
        exact all
      · intro poppedAt' pending' same other x member
        cases same
        exact conserved.ready poppedAt pending here other x (still other x member)

/-- In every run of `start` each generated event is accounted for once: it has been run, it
waits in the current batch, it is queued, or it was in a batch when the loop ended and its
time lay within the run. -/
theorem events_conserved (accepts : Distributions) (join leave put get : Bytes) (duration : TimeUnit)
    (draws : Draws) (first s : Loop) (accepted : start accepts join leave put get duration draws = .ok first)
    (run : Run first s) :
    ∃ dropped : (op : DhtOperation) → List (DhtEvent op),
      (∀ op, (s.ranEvents op ++ s.waiting op ++ dropped op ++ s.queued op).Perm (s.pushed op)) ∧
      ((∀ ending, s.pc ≠ .ended ending) → ∀ op, dropped op = []) ∧
      ∀ op, ∀ x ∈ dropped op, x.time < s.duration := by
  obtain ⟨profile,draws,rfl,_⟩ := start_enters accepts join leave put get duration draws first accepted
  obtain ⟨dropped,conserved⟩ : ∃ dropped, Conserved s dropped := by
    refine @run_invariant Loop Step (fun s => ∃ dropped, Conserved s dropped) _ s run ?_ ?_
    · exact ⟨fun _ => [],fun _ => List.Perm.refl _,fun _ _ => rfl,fun _ => nofun,nofun⟩
    · rintro before after ⟨dropped,conserved⟩ step
      exact moves_conserved before after dropped conserved (step_moves before after step)
  exact ⟨dropped,conserved.all,conserved.going,conserved.due⟩

omit heap in
/-- The time is up after the first of two joins. -/
theorem second_join_dropped : startJoining (ascii "exact 1 1") 10 = .ok (joining [1,1] 10) ∧
    ∃ s, @Run plainHeap (joining [1,1] 10) s ∧ s.timeUp = true ∧ (s.ranEvents .join).length = 1 ∧
      ∃ dropped : List (DhtEvent .join), dropped.length = 1 ∧
        (s.ranEvents .join ++ s.waiting .join ++ dropped ++ s.queued .join).Perm (s.pushed .join) := by
  let heap := plainHeap
  have accepted : startJoining (ascii "exact 1 1") 10 = .ok (joining [1,1] 10) := rfl
  obtain ⟨s,run,shape⟩ := perform_run act (fun _ _ => True)
    [.pass 1,.event [⟨true,3,5,5⟩] 10000000] (joining [1,1] 10)
    (fun s => s.timeUp && (s.ranEvents .join).length == 1 && (s.waiting .join).length == 0 &&
      (s.queued .join).length == 0 && (s.pushed .join).length == 2) (by decide +kernel)
  have steps := actions_run _ _ s run
  obtain ⟨dropped,all,_⟩ := events_conserved _ _ _ _ _ _ _ _ s accepted steps
  simp only [Bool.and_eq_true,beq_iff_eq] at shape
  obtain ⟨⟨⟨⟨halted,ran⟩,waiting⟩,queued⟩,pushed⟩ := shape
  have total := (all .join).length_eq
  simp only [List.length_append] at total
  exact ⟨accepted,s,steps,halted,ran,dropped .join,by omega,all .join⟩

end Loop
end Dhtperf
