import Dhtperf.DhtperfController.Moves

/-! When the loop goes to wait, does it wake in time? Zero stands both for an empty
queue and for the first second of the run, and this is the only thing that goes wrong. -/
namespace Dhtperf
open Library

namespace Loop

/-- Nothing of the current mode is due, the wait ends by the first event before the end
of the run, and it lasts to the end only without such an event. -/
def WaitsInTime (s : Loop) (toWait : TimeUnit) : Prop :=
  ∀ op ∈ modeOperations s.dhtNode.connected, ∀ event ∈ s.queued op,
    s.elapsed < event.time ∧
    (event.time < s.duration → s.elapsed.toNat + toWait.toNat ≤ event.time.toNat) ∧
    (s.duration.toNat ≤ s.elapsed.toNat + toWait.toNat → s.duration ≤ event.time)

def NoneAtZero (s : Loop) : Prop :=
  ∀ op ∈ modeOperations s.dhtNode.connected, ∀ event ∈ s.queued op, event.time ≠ 0

theorem late_of_zero (s : Loop) (toWait : TimeUnit) (intime : WaitsInTime s toWait) : NoneAtZero s := by
  intro op mode event queued zero
  have later := (intime op mode event queued).1
  rw [zero] at later
  exact absurd later (UInt32.not_lt.mpr (UInt32.le_iff_toNat_le.mpr (Nat.zero_le _)))

section
variable [heap : StdHeap]

theorem pass_waits (s : Loop) (reading : Nat) (polled : Polled)
    (more : (s.readClock reading).timeUp = false)
    (ok : s.workload.getNextEventTime (s.readClock reading).elapsed s.dhtNode.connected s.draws = .ok polled)
    (early : ((s.readClock reading).refresh polled).nextEvent ≠ 0 →
      (s.readClock reading).elapsed < ((s.readClock reading).refresh polled).nextEvent)
    (positive : NoneAtZero ((s.readClock reading).refresh polled)) :
    WaitsInTime ((s.readClock reading).refresh polled) ((s.readClock reading).refresh polled).waitsFor := by
  intro op mode event queued
  have least := ControllerWorkloadProfile.polled_least s.workload _ _ _ polled ok op mode
    (positive op mode) event queued
  have checked := readClock_checked s reading more
  have next : ((s.readClock reading).refresh polled).nextEvent =
      if polled.time > s.duration then 0 else polled.time := rfl
  have same : ((s.readClock reading).refresh polled).duration = s.duration := rfl
  have elapsed : ((s.readClock reading).refresh polled).elapsed = (s.readClock reading).elapsed := rfl
  have total := checked.total
  have positive := checked.positive
  have kept : (s.readClock reading).duration = s.duration := rfl
  have below := UInt32.le_iff_toNat_le.mp least.2
  rw [same,elapsed]
  simp only [UInt32.lt_iff_toNat_lt,UInt32.le_iff_toNat_le]
  rw [kept] at total
  by_cases far : polled.time > s.duration
  · -- The next event lies behind the end, and so does this one.
    have behind := UInt32.lt_iff_toNat_lt.mp far
    exact ⟨by omega,fun inside => by omega,fun _ => by omega⟩
  · rw [if_neg far] at next
    have nonzero : ((s.readClock reading).refresh polled).nextEvent ≠ 0 := by rw [next]; exact least.1
    have soon := early nonzero
    have wait : ((s.readClock reading).refresh polled).waitsFor =
        polled.time - (s.readClock reading).elapsed := by
      unfold waitsFor
      rw [if_pos nonzero,next]
      rfl
    rw [next] at soon
    rw [wait,UInt32.toNat_sub_of_le _ _ (UInt32.le_of_lt soon)]
    have soon := UInt32.lt_iff_toNat_lt.mp soon
    exact ⟨by omega,fun inside => by omega,fun late => by omega⟩

/-- Every wait that sees no event at time zero is in time. -/
structure Punctual (s : Loop) : Prop where
  paced : Paced s
  waits : ∀ toWait, s.pc = .sleeping toWait → NoneAtZero s → WaitsInTime s toWait

theorem moves_punctual (s after : Loop) (punctual : Punctual s) (moves : Moves s after) : Punctual after := by
  refine ⟨moves_paced s after punctual.paced moves,?_⟩
  cases moves with
  | expired reading here up => exact nofun
  | failed reading fault here => exact nofun
  | refused poppedAt pending op attempts fault here busy returned => exact nofun
  | popped reading polled here later more ok some due => exact nofun
  | waits reading polled here later more ok early =>
    intro toWait same positive
    cases same
    exact pass_waits s reading polled more ok early positive
  | handled poppedAt pending op event rest attempts node reading pc here first next returned later check =>
    intro toWait same
    rcases check with ⟨_,rfl⟩ | ⟨_,rfl⟩
    · cases same
    · cases same
  | batchDone poppedAt pending here empty =>
    have due := punctual.paced.due poppedAt pending here
    rw [afterEvents_due s due.1 due.2]
    exact nofun
  | wake toWait reading here later => exact nofun

theorem run_punctual (accepts : Distributions) (join leave put get : Bytes) (duration : TimeUnit)
    (draws : Draws) (first s : Loop) (accepted : start accepts join leave put get duration draws = .ok first)
    (run : Run first s) : Punctual s := by
  obtain ⟨profile,draws,rfl,_⟩ := start_enters accepts join leave put get duration draws first accepted
  refine run_invariant run ⟨enter_paced profile duration draws,nofun⟩ ?_
  intro before after punctual step
  exact moves_punctual before after punctual (step_moves before after step)

/-- In every run, a wait is in time exactly when no event of the current mode is queued
at time zero. -/
theorem wait_in_time_iff (accepts : Distributions) (join leave put get : Bytes) (duration : TimeUnit)
    (draws : Draws) (first s : Loop) (accepted : start accepts join leave put get duration draws = .ok first)
    (run : Run first s) (toWait : TimeUnit) (waiting : s.pc = .sleeping toWait) :
    WaitsInTime s toWait ↔ NoneAtZero s := by
  have punctual := run_punctual accepts join leave put get duration draws first s accepted run
  exact ⟨late_of_zero s toWait,punctual.waits toWait waiting⟩

end

theorem wait_for_exact : startJoining (ascii "exact 3") 10 = .ok (joining [3] 10) ∧
    (@pass plainHeap (joining [3] 10) 1).pc = .sleeping 2 ∧
    WaitsInTime (@pass plainHeap (joining [3] 10) 1) 2 := by
  have accepted : startJoining (ascii "exact 3") 10 = .ok (joining [3] 10) := rfl
  have run : @Run plainHeap (joining [3] 10) (@pass plainHeap (joining [3] 10) 1) :=
    .single (@Step.pass plainHeap _ 1 rfl (Nat.zero_le _))
  refine ⟨accepted,rfl,?_⟩
  refine (@wait_in_time_iff plainHeap _ _ _ _ _ _ _ _ _ accepted run 2 rfl).mpr ?_
  unfold NoneAtZero
  decide

/-- A join at time zero sleeps through the run. -/
theorem zero_starves : startJoining (ascii "exact 0") 10 = .ok (joining [0] 10) ∧
    @Run plainHeap (joining [0] 10) (@pass plainHeap (joining [0] 10) 1) ∧
    (@pass plainHeap (joining [0] 10) 1).pc = .sleeping 9 ∧
    ¬WaitsInTime (@pass plainHeap (joining [0] 10) 1) 9 := by
  refine ⟨rfl,.single (@Step.pass plainHeap _ 1 rfl (Nat.zero_le _)),rfl,?_⟩
  intro intime
  have queued : (⟨0,()⟩ : DhtEvent .join) ∈ (@pass plainHeap (joining [0] 10) 1).queued .join := by decide
  exact late_of_zero _ _ intime .join (by decide) ⟨0,()⟩ queued rfl

end Loop
end Dhtperf
