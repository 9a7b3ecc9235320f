import Dhtperf.DhtperfController.Polling
import Dhtperf.Profile.Classes

/-! The times the generators push. A refill whose sum does not wrap never lies before
the time of the poll or before an earlier event of the same generator. -/
namespace Dhtperf
open Library Utils

/-- The last time a generator has pushed at bounds a time. -/
def ProfileKind.Reaches (kind : ProfileKind) (time : TimeUnit) : Prop :=
  match kind with
  | .interval _ lastEventTime _ _ => time ≤ lastEventTime
  | .poissonRandom _ lastEvent => time ≤ lastEvent
  | _ => True

theorem randomEvents_time (op : DhtOperation) (setSize time : UInt32) (n : Nat) (draws : Draws) :
    ∀ event ∈ (randomEvents op setSize time n draws).1, event.time = time := by
  induction n generalizing draws with
  | zero => simp [randomEvents]
  | succ n ih =>
    have here : (randomEvent op setSize time draws).1.time = time := by cases op <;> rfl
    intro event member
    rcases List.mem_cons.mp member with rfl | inside
    · exact here
    · exact ih _ event inside

theorem interval_time (op : DhtOperation) (setSize repetitions time : UInt32) (draws : Draws)
    (pushed : List (DhtEvent op) × Draws)
    (ok : Interval.pushElement op setSize repetitions time draws = .ok pushed) :
    ∀ event ∈ pushed.1, event.time = time := by
  cases op with
  | join => cases ok
  | leave => cases ok
  | put => cases ok; exact randomEvents_time _ _ _ _ _
  | get => cases ok; exact randomEvents_time _ _ _ _ _

theorem now_time (op : DhtOperation) (time : UInt32) (draws : Draws) (pushed : List (DhtEvent op) × Draws)
    (ok : Now.pushElement op time draws = .ok pushed) : ∀ event ∈ pushed.1, event.time = time := by
  cases op with
  | join => cases ok; simp
  | leave => cases ok; simp
  | put => cases ok
  | get => cases ok

theorem poisson_time (op : DhtOperation) (setSize time : UInt32) (draws : Draws)
    (pushed : List (DhtEvent op) × Draws)
    (ok : PoissonRandom.pushElement op setSize time draws = .ok pushed) :
    ∀ event ∈ pushed.1, event.time = time := by
  cases ok
  exact randomEvents_time _ _ _ _ _

theorem weibull_time (op : DhtOperation) (setSize time : UInt32) (draws : Draws)
    (pushed : List (DhtEvent op) × Draws)
    (ok : WeibullRandom.pushElement op setSize time draws = .ok pushed) :
    ∀ event ∈ pushed.1, event.time = time := by
  cases ok
  exact randomEvents_time _ _ _ _ _

section
variable [heap : StdHeap] {op : DhtOperation}

namespace Profile

/-- If a refill is due, the sum it computes does not wrap. -/
def Fits (profile : Profile op) (currentTime : TimeUnit) (draws : Draws) : Prop :=
  profile.eventQueue.getNextEventTime = 0 →
    match profile.kind with
    | .interval _ lastEventTime frequency _ => lastEventTime.toNat + frequency.toNat < 2^32
    | .poissonRandom _ lastEvent => lastEvent.toNat + (naturalDraw draws).1.toNat < 2^32
    | .weibullRandom _ => currentTime.toNat + (naturalDraw draws).1.toNat < 2^32
    | _ => True

omit heap in
theorem le_add_of_fits (a b : UInt32) (fits : a.toNat + b.toNat < 2^32) : a ≤ a + b := by
  rw [UInt32.le_iff_toNat_le,UInt32.toNat_add,Nat.mod_eq_of_lt fits]
  exact Nat.le_add_right _ _

def Advances (profile : Profile op) (currentTime : TimeUnit) (scheduled : Scheduled op) : Prop :=
  (∀ event ∈ scheduled.pushed, scheduled.profile.kind.Reaches event.time) ∧
  ∀ time, profile.kind.Reaches time → scheduled.profile.kind.Reaches time ∧
    (time ≤ currentTime → ∀ event ∈ scheduled.pushed, time ≤ event.time)

omit heap in
theorem unchanged_advances (profile : Profile op) (currentTime : TimeUnit) (draws : Draws) :
    profile.Advances currentTime (profile.unchanged draws) :=
  ⟨nofun,fun _ reaches => ⟨reaches,fun _ => nofun⟩⟩

theorem refill_advances (profile : Profile op) (currentTime time : TimeUnit) (kind : ProfileKind)
    (loud : kind ≠ .none) (push : Except Fault (List (DhtEvent op) × Draws)) (scheduled : Scheduled op)
    (ok : profile.refill kind loud push = .ok scheduled)
    (times : ∀ pushed, push = .ok pushed → ∀ event ∈ pushed.1, event.time = time)
    (here : kind.Reaches time) (kept : ∀ other, profile.kind.Reaches other → kind.Reaches other)
    (after : ∀ other, profile.kind.Reaches other → other ≤ currentTime → other ≤ time) :
    profile.Advances currentTime scheduled := by
  cases push with
  | error fault => cases ok
  | ok pushed =>
    cases ok
    have times := times pushed rfl
    refine ⟨fun event member => ?_,fun other reaches => ⟨kept other reaches,fun past event member => ?_⟩⟩
    · rw [times event member]
      exact here
    · rw [times event member]
      exact after other reaches past

theorem scheduleNextEvent_advances (profile : Profile op) (currentTime : TimeUnit) (draws : Draws)
    (scheduled : Scheduled op) (ok : profile.scheduleNextEvent currentTime draws = .ok scheduled)
    (fits : profile.Fits currentTime draws) : profile.Advances currentTime scheduled := by
  have untouched : ∀ other, (pure (profile.unchanged draws) : Except Fault _) = .ok other →
      profile.Advances currentTime other := by
    intro other same
    cases same
    exact unchanged_advances profile currentTime draws
  unfold scheduleNextEvent at ok
  unfold Fits at fits
  split at ok
  next => exact untouched _ ok
  next => exact untouched _ ok
  next => exact untouched _ ok
  next =>
    cases ok
    exact ⟨nofun,fun _ reaches => ⟨reaches,fun _ => nofun⟩⟩
  next setSize lastEventTime frequency repetitions kind =>
    split at ok
    next due =>
      have later := le_add_of_fits _ _ (by simpa only [kind] using fits due)
      have on : ∀ other, profile.kind.Reaches other → other ≤ lastEventTime + frequency := by
        rw [kind]
        exact fun other reaches => UInt32.le_trans reaches later
      exact refill_advances profile currentTime _ _ _ _ scheduled ok (interval_time _ _ _ _ _)
        (UInt32.le_refl _) on (fun other reaches _ => on other reaches)
    next => exact untouched _ ok
  next kind =>
    split at ok
    next =>
      exact refill_advances profile currentTime _ _ _ _ scheduled ok (now_time _ _ _) trivial
        (fun _ _ => trivial) (fun _ _ past => past)
    next => exact untouched _ ok
  next setSize lastEvent kind =>
    split at ok
    next due =>
      have later := le_add_of_fits _ _ (by simpa only [kind] using fits due)
      have on : ∀ other, profile.kind.Reaches other → other ≤ lastEvent + (naturalDraw draws).1 := by
        rw [kind]
        exact fun other reaches => UInt32.le_trans reaches later
      exact refill_advances profile currentTime _ _ _ _ scheduled ok (poisson_time _ _ _ _)
        (UInt32.le_refl _) on (fun other reaches _ => on other reaches)
    next => exact untouched _ ok
  next setSize kind =>
    split at ok
    next due =>
      have later := le_add_of_fits _ _ (by simpa only [kind] using fits due)
      exact refill_advances profile currentTime _ _ _ _ scheduled ok (weibull_time _ _ _ _) trivial
        (fun _ _ => trivial) (fun _ _ past => UInt32.le_trans past later)
    next => exact untouched _ ok

theorem filledQueue_times (events : List (DhtEvent op)) (time : TimeUnit)
    (times : ∀ event ∈ events, event.time = time) :
    ∀ event ∈ (filledQueue events).elements, event.time = time := by
  intro event member
  have pushed := (PriorityQueue.pushAll_perm PriorityQueue.empty events).mem_iff.mp member
  simp only [PriorityQueue.empty_elements,List.append_nil] at pushed
  exact times event pushed

theorem interval_reaches (params : Bytes) (draws : Draws) (made : Profile op × Draws)
    (ok : Interval.make op params draws = .ok made) :
    ∀ event ∈ made.1.eventQueue.elements, made.1.kind.Reaches event.time := by
  obtain ⟨_,_,_,_,_,_,_,_,pushed,_,_,_,_,found,kind,queue⟩ := interval_made params draws made ok
  rw [kind,queue]
  have times := filledQueue_times pushed.1 _ (interval_time _ _ _ _ _ _ found)
  exact fun event member => UInt32.le_of_eq (times event member)

theorem poisson_reaches (accepts : Distributions) (params : Bytes) (draws : Draws) (made : Profile op × Draws)
    (ok : PoissonRandom.make accepts op params draws = .ok made) :
    ∀ event ∈ made.1.eventQueue.elements, made.1.kind.Reaches event.time := by
  obtain ⟨setSize,lastEvent,_,kind,queue⟩ := poissonRandom_made params draws made accepts ok
  rw [kind,queue]
  have times := filledQueue_times _ lastEvent (randomEvents_time op setSize lastEvent 1 draws.rest)
  exact fun event member => UInt32.le_of_eq (times event member)

theorem makeProfile_reaches (accepts : Distributions) (op : DhtOperation) (text : Bytes) (draws : Draws)
    (made : Profile op × Draws) (ok : makeProfile accepts op text draws = .ok made) :
    ∀ event ∈ made.1.eventQueue.elements, made.1.kind.Reaches event.time := by
  obtain ⟨type,_,ok⟩ := makeProfile_made accepts text draws made ok
  cases type with
  | interval => exact interval_reaches _ draws made ok
  | poissonRandom => exact poisson_reaches accepts _ draws made ok
  | exact =>
    rw [exact_made _ draws made ok]
    exact fun _ _ => trivial
  | fullDictionary =>
    obtain ⟨_,_,_,_,_,_,_,kind,_⟩ := fullDictionary_made _ draws made ok
    rw [kind]
    exact fun _ _ => trivial
  | none =>
    cases ok
    exact fun _ _ => trivial
  | now =>
    obtain ⟨_,_,_,_,kind,_⟩ := now_made _ draws made ok
    rw [kind]
    exact fun _ _ => trivial
  | nTimesRandom =>
    obtain ⟨_,_,_,_,_,_,_,kind,_⟩ := nTimesRandom_made _ draws made ok
    rw [kind]
    exact fun _ _ => trivial
  | weibullRandom =>
    obtain ⟨_,_,kind,_⟩ := weibullRandom_made _ draws made accepts ok
    rw [kind]
    exact fun _ _ => trivial

end Profile
end
end Dhtperf
