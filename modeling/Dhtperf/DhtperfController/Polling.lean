import Dhtperf.DhtperfController

/-! What a poll of the profiles does: a refill only adds events, the returned time is
the least nonzero time of the current mode, and a refill whose sum does not wrap lies
behind everything the profile has pushed. -/
namespace Dhtperf
open Library Utils

variable [heap : StdHeap]

namespace Profile
variable {op : DhtOperation}

theorem scheduleNextEvent_spec (profile : Profile op) (currentTime : TimeUnit) (draws : Draws)
    (scheduled : Scheduled op) (ok : profile.scheduleNextEvent currentTime draws = .ok scheduled) :
    scheduled.time = scheduled.profile.eventQueue.getNextEventTime ∧
      scheduled.profile.eventQueue.elements.Perm (scheduled.pushed ++ profile.eventQueue.elements) := by
  have untouched : ∀ other, (pure (profile.unchanged draws) : Except Fault _) = .ok other →
      other.time = other.profile.eventQueue.getNextEventTime ∧
        other.profile.eventQueue.elements.Perm (other.pushed ++ profile.eventQueue.elements) := by
    intro other same
    cases same
    exact ⟨rfl,List.Perm.refl _⟩
  have refilled : ∀ kind loud push other, profile.refill kind loud push = .ok other →
      other.time = other.profile.eventQueue.getNextEventTime ∧
        other.profile.eventQueue.elements.Perm (other.pushed ++ profile.eventQueue.elements) := by
    intro kind loud push other same
    cases push with
    | error fault => cases same
    | ok pushed =>
      cases same
      exact ⟨rfl,PriorityQueue.pushAll_perm _ _⟩
  unfold scheduleNextEvent at ok
  split at ok
  next => exact untouched _ ok
  next => exact untouched _ ok
  next => exact untouched _ ok
  next quiet =>
    cases ok
    exact ⟨(EventQueue.getNextEventTime_empty _ (profile.silent quiet)).symm,List.Perm.refl _⟩
  all_goals
    split at ok
    · exact refilled _ _ _ _ ok
    · exact untouched _ ok

end Profile

omit heap in
theorem earlier_zero (ret aux : TimeUnit) (zero : earlier ret aux = 0) : ret = 0 ∧ aux = 0 := by
  unfold earlier at zero
  split at zero
  next taken =>
    rcases taken with first | ⟨_,second⟩
    · exact ⟨first,zero⟩
    · exact absurd zero second
  next kept => exact absurd (Or.inl zero) kept

omit heap in
theorem earlier_le_left (ret aux : TimeUnit) (nonzero : ret ≠ 0) : earlier ret aux ≤ ret := by
  unfold earlier
  split
  next taken =>
    rcases taken with first | ⟨below,_⟩
    · contradiction
    · exact UInt32.le_of_lt below
  next => exact UInt32.le_refl _

omit heap in
theorem earlier_le_right (ret aux : TimeUnit) (nonzero : aux ≠ 0) : earlier ret aux ≤ aux := by
  unfold earlier
  split
  next => exact UInt32.le_refl _
  next kept =>
    have above : ¬aux < ret := fun below => kept (Or.inr ⟨below,nonzero⟩)
    exact UInt32.not_lt.mp above

namespace ControllerWorkloadProfile

def drawsFor (workload : ControllerWorkloadProfile) (currentTime : TimeUnit) (draws : Draws) :
    DhtOperation → Except Fault Draws
  | .join => pure draws
  | .leave => pure draws
  | .put => do
    let leave ← (workload.profile .leave).scheduleNextEvent currentTime draws
    pure leave.draws
  | .get => do
    let leave ← (workload.profile .leave).scheduleNextEvent currentTime draws
    let put ← (workload.profile .put).scheduleNextEvent currentTime leave.draws
    pure put.draws

def Polls (workload : ControllerWorkloadProfile) (currentTime : TimeUnit) (draws : Draws)
    (polled : Polled) (op : DhtOperation) : Prop :=
  ∃ before scheduled, workload.drawsFor currentTime draws op = .ok before ∧
    (workload.profile op).scheduleNextEvent currentTime before = .ok scheduled ∧
    polled.profile op = scheduled.profile ∧ polled.pushed op = scheduled.pushed ∧
    (scheduled.time ≠ 0 → polled.time ≠ 0 ∧ polled.time ≤ scheduled.time)

theorem getNextEventTime_polls (workload : ControllerWorkloadProfile) (currentTime : TimeUnit)
    (connected : Bool) (draws : Draws) (polled : Polled)
    (ok : workload.getNextEventTime currentTime connected draws = .ok polled) (op : DhtOperation) :
    if op ∈ modeOperations connected then workload.Polls currentTime draws polled op
    else polled.profile op = workload.profile op ∧ polled.pushed op = [] := by
  cases connected with
  | false =>
    obtain ⟨joins,join,ok⟩ := bind_ok ok
    cases ok
    cases op with
    | join => exact ⟨draws,joins,rfl,join,rfl,rfl,fun nonzero => ⟨nonzero,UInt32.le_refl _⟩⟩
    | leave => exact ⟨rfl,rfl⟩
    | put => exact ⟨rfl,rfl⟩
    | get => exact ⟨rfl,rfl⟩
  | true =>
    obtain ⟨leaves,leave,ok⟩ := bind_ok ok
    obtain ⟨puts,put,ok⟩ := bind_ok ok
    obtain ⟨gets,get,ok⟩ := bind_ok ok
    cases ok
    have first : leaves.time ≠ 0 ∨ puts.time ≠ 0 → earlier leaves.time puts.time ≠ 0 := by
      intro some zero
      have none := earlier_zero _ _ zero
      rcases some with nonzero | nonzero
      · exact nonzero none.1
      · exact nonzero none.2
    have second : earlier leaves.time puts.time ≠ 0 →
        earlier (earlier leaves.time puts.time) gets.time ≠ 0 :=
      fun nonzero zero => nonzero (earlier_zero _ _ zero).1
    cases op with
    | join => exact ⟨rfl,rfl⟩
    | leave =>
      refine ⟨draws,leaves,rfl,leave,rfl,rfl,fun nonzero => ⟨second (first (Or.inl nonzero)),?_⟩⟩
      exact UInt32.le_trans (earlier_le_left _ _ (first (Or.inl nonzero))) (earlier_le_left _ _ nonzero)
    | put =>
      refine ⟨leaves.draws,puts,by simp only [drawsFor,leave]; rfl,put,rfl,rfl,
        fun nonzero => ⟨second (first (Or.inr nonzero)),?_⟩⟩
      exact UInt32.le_trans (earlier_le_left _ _ (first (Or.inr nonzero))) (earlier_le_right _ _ nonzero)
    | get =>
      refine ⟨puts.draws,gets,by simp only [drawsFor,leave,bind,Except.bind,put]; rfl,get,rfl,rfl,
        fun nonzero => ⟨fun zero => nonzero (earlier_zero _ _ zero).2,earlier_le_right _ _ nonzero⟩⟩

theorem polled_perm (workload : ControllerWorkloadProfile) (currentTime : TimeUnit)
    (connected : Bool) (draws : Draws) (polled : Polled)
    (ok : workload.getNextEventTime currentTime connected draws = .ok polled) (op : DhtOperation) :
    (polled.profile op).eventQueue.elements.Perm
      (polled.pushed op ++ (workload.profile op).eventQueue.elements) := by
  have here := getNextEventTime_polls workload currentTime connected draws polled ok op
  split at here
  next =>
    obtain ⟨before,scheduled,_,found,profile,pushed,_⟩ := here
    rw [profile,pushed]
    exact (Profile.scheduleNextEvent_spec _ _ _ _ found).2
  next =>
    rw [here.1,here.2]
    exact List.Perm.refl _

theorem polled_least (workload : ControllerWorkloadProfile) (currentTime : TimeUnit)
    (connected : Bool) (draws : Draws) (polled : Polled)
    (ok : workload.getNextEventTime currentTime connected draws = .ok polled)
    (op : DhtOperation) (mode : op ∈ modeOperations connected)
    (positive : ∀ event ∈ (polled.profile op).eventQueue.elements, event.time ≠ 0)
    (event : DhtEvent op) (queued : event ∈ (polled.profile op).eventQueue.elements) :
    polled.time ≠ 0 ∧ polled.time ≤ event.time := by
  have here := getNextEventTime_polls workload currentTime connected draws polled ok op
  rw [if_pos mode] at here
  obtain ⟨before,scheduled,_,found,profile,_,least⟩ := here
  rw [profile] at positive queued
  have front := (Profile.scheduleNextEvent_spec _ _ _ _ found).1
  have nonzero : scheduled.time ≠ 0 := by
    intro zero
    rw [front] at zero
    simp [EventQueue.empty_of_zero _ positive zero] at queued
  refine ⟨(least nonzero).1,UInt32.le_trans (least nonzero).2 ?_⟩
  rw [front]
  exact EventQueue.getNextEventTime_le _ event queued

end ControllerWorkloadProfile
end Dhtperf
