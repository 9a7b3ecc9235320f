import Dhtperf.Profile.Keys
import Dhtperf.Library.Runs

/-! The profiles that go on generating events: `Interval`, `Now`, `PoissonRandom` and
`WeibullRandom`. They push again when a poll finds nothing pending, one batch of events
of equal time each time. -/
namespace Dhtperf
open Library Utils Relation

namespace ProfileKind

def IsGenerator : ProfileKind → Prop
  | .interval _ _ _ _ => True
  | .now => True
  | .poissonRandom _ _ => True
  | .weibullRandom _ => True
  | _ => False

def batch : ProfileKind → Nat
  | .interval _ _ _ repetitions => repetitions.toNat
  | _ => 1

/-- The classes whose `pushElement` is implemented for the operation. -/
def Serves (op : DhtOperation) : ProfileKind → Prop
  | .interval _ _ _ _ => op.Keyed
  | .now => op = .join ∨ op = .leave
  | .poissonRandom _ _ => True
  | .weibullRandom _ => True
  | _ => False

def nextTime (kind : ProfileKind) (currentTime : TimeUnit) (draws : Draws) : TimeUnit :=
  match kind with
  | .interval _ lastEventTime frequency _ => lastEventTime + frequency
  | .poissonRandom _ lastEvent => lastEvent + (naturalDraw draws).1
  | .weibullRandom _ => currentTime + (naturalDraw draws).1
  | _ => currentTime

def refilled (kind : ProfileKind) (time : TimeUnit) : ProfileKind :=
  match kind with
  | .interval setSize _ frequency repetitions => .interval setSize time frequency repetitions
  | .poissonRandom setSize _ => .poissonRandom setSize time
  | kind => kind

theorem refilled_batch (kind : ProfileKind) (time : TimeUnit) : (kind.refilled time).batch = kind.batch := by
  cases kind <;> rfl

theorem refilled_serves (op : DhtOperation) (kind : ProfileKind) (time : TimeUnit) (serves : kind.Serves op) :
    (kind.refilled time).Serves op := by
  cases kind <;> exact serves

end ProfileKind

theorem randomEvents_length (op : DhtOperation) (setSize time : UInt32) (n : Nat) (draws : Draws) :
    (randomEvents op setSize time n draws).1.length = n := by
  induction n generalizing draws with
  | zero => rfl
  | succ n ih => exact congrArg (· + 1) (ih _)

theorem interval_pushes (op : DhtOperation) (keyed : op.Keyed) (setSize repetitions time : UInt32) (draws : Draws) :
    Interval.pushElement op setSize repetitions time draws =
      .ok (randomEvents op setSize time repetitions.toNat draws) := by
  rcases keyed with rfl | rfl
  · rfl
  · rfl

theorem now_pushes (op : DhtOperation) (unkeyed : op = .join ∨ op = .leave) (time : UInt32) (draws : Draws) :
    ∃ event, Now.pushElement op time draws = .ok ([event],draws) := by
  rcases unkeyed with rfl | rfl
  · exact ⟨_,rfl⟩
  · exact ⟨_,rfl⟩

theorem ProfileKind.reaches_le (kind : ProfileKind) (time other : TimeUnit) (before : time ≤ other)
    (reaches : kind.Reaches other) : kind.Reaches time := by
  cases kind with
  | interval => exact UInt32.le_trans before reaches
  | poissonRandom => exact UInt32.le_trans before reaches
  | exact => trivial
  | fullDictionary => trivial
  | none => trivial
  | now => trivial
  | nTimesRandom => trivial
  | weibullRandom => trivial

/-! ### Constructors and polls -/

section
variable [heap : StdHeap] {op : DhtOperation}

namespace Profile

/-- A constructor leaves one batch of events of one time; only `WeibullRandom` waits for a poll. -/
structure Fresh (made : Profile op) : Prop where
  serves : made.kind.Serves op
  events : made.eventQueue.elements = [] ∧ (∃ setSize, made.kind = .weibullRandom setSize) ∨
    made.eventQueue.elements.length = made.kind.batch ∧
      ∃ time, (∀ event ∈ made.eventQueue.elements, event.time = time) ∧ made.kind.refilled time = made.kind

/-- What a poll does: it refills the queue when nothing is pending and leaves it alone otherwise. -/
structure Polls (profile : Profile op) (currentTime : TimeUnit) (draws : Draws) (scheduled : Scheduled op) : Prop where
  queue : scheduled.profile.eventQueue = profile.eventQueue.pushAll scheduled.pushed
  time : scheduled.time = scheduled.profile.eventQueue.getNextEventTime
  waits : profile.eventQueue.getNextEventTime ≠ 0 → scheduled.pushed = [] ∧ scheduled.profile.kind = profile.kind
  refills : profile.eventQueue.getNextEventTime = 0 → scheduled.pushed.length = profile.kind.batch ∧
    (∀ event ∈ scheduled.pushed, event.time = profile.kind.nextTime currentTime draws) ∧
    scheduled.profile.kind = profile.kind.refilled (profile.kind.nextTime currentTime draws)

theorem unchanged_polls (profile : Profile op) (currentTime : TimeUnit) (draws : Draws)
    (pending : profile.eventQueue.getNextEventTime ≠ 0) :
    profile.Polls currentTime draws (profile.unchanged draws) where
  queue := rfl
  time := rfl
  waits _ := ⟨rfl,rfl⟩
  refills due := absurd due pending

theorem refill_polls (profile : Profile op) (currentTime : TimeUnit) (draws : Draws)
    (loud : profile.kind.refilled (profile.kind.nextTime currentTime draws) ≠ .none)
    (pushed : List (DhtEvent op) × Draws) (due : profile.eventQueue.getNextEventTime = 0)
    (count : pushed.1.length = profile.kind.batch)
    (times : ∀ event ∈ pushed.1, event.time = profile.kind.nextTime currentTime draws) :
    ∃ scheduled, profile.refill _ loud (.ok pushed) = .ok scheduled ∧ profile.Polls currentTime draws scheduled :=
  ⟨_,rfl,rfl,rfl,fun pending => absurd due pending,fun _ => ⟨count,times,rfl⟩⟩

theorem generator_polls (profile : Profile op) (currentTime : TimeUnit) (draws : Draws)
    (serves : profile.kind.Serves op) :
    ∃ scheduled, profile.scheduleNextEvent currentTime draws = .ok scheduled ∧
      profile.Polls currentTime draws scheduled := by
  obtain ⟨kind,queue,silent⟩ := profile
  by_cases due : queue.getNextEventTime = 0
  · cases kind with
    | interval setSize lastEventTime frequency repetitions =>
      have pushes := interval_pushes op serves setSize repetitions (lastEventTime + frequency) draws
      simp only [scheduleNextEvent,if_pos due,pushes]
      exact refill_polls ⟨.interval setSize lastEventTime frequency repetitions,queue,silent⟩ currentTime draws _ _
        due (randomEvents_length _ _ _ _ _) (randomEvents_time _ _ _ _ _)
    | now =>
      obtain ⟨event,pushes⟩ := now_pushes op serves currentTime draws
      simp only [scheduleNextEvent,if_pos due,pushes]
      exact refill_polls ⟨.now,queue,silent⟩ currentTime draws _ _ due rfl (now_time op currentTime draws _ pushes)
    | poissonRandom setSize lastEvent =>
      simp only [scheduleNextEvent,if_pos due]
      exact refill_polls ⟨.poissonRandom setSize lastEvent,queue,silent⟩ currentTime draws _ _ due
        (randomEvents_length _ _ _ _ _) (randomEvents_time _ _ _ _ _)
    | weibullRandom setSize =>
      simp only [scheduleNextEvent,if_pos due]
      exact refill_polls ⟨.weibullRandom setSize,queue,silent⟩ currentTime draws _ _ due
        (randomEvents_length _ _ _ _ _) (randomEvents_time _ _ _ _ _)
    | exact => cases serves
    | fullDictionary => cases serves
    | none => cases serves
    | nTimesRandom setSize => cases serves
  · refine ⟨_,?_,unchanged_polls _ currentTime draws due⟩
    cases kind with
    | interval setSize lastEventTime frequency repetitions => exact if_neg due
    | now => exact if_neg due
    | poissonRandom setSize lastEvent => exact if_neg due
    | weibullRandom setSize => exact if_neg due
    | exact => cases serves
    | fullDictionary => cases serves
    | none => cases serves
    | nTimesRandom setSize => cases serves

theorem filled_fresh (made : Profile op) (events : List (DhtEvent op)) (time : TimeUnit)
    (serves : made.kind.Serves op) (filled : made.eventQueue = filledQueue events)
    (count : events.length = made.kind.batch) (times : ∀ event ∈ events, event.time = time)
    (last : made.kind.refilled time = made.kind) : made.Fresh := by
  refine ⟨serves,Or.inr ⟨?_,time,?_,last⟩⟩
  · have size := (PriorityQueue.pushAll_perm (PriorityQueue.empty : EventQueue op) events).length_eq
    rw [PriorityQueue.empty_elements,List.append_nil] at size
    rw [filled]
    exact size.trans count
  · rw [filled]
    exact filledQueue_times events time times

theorem interval_fresh (params : Bytes) (draws : Draws) (made : Profile op × Draws)
    (ok : Interval.make op params draws = .ok made) : made.1.Fresh := by
  obtain ⟨_,_,_,_,setSize,count,_,start,pushed,_,_,_,_,found,kind,queue⟩ := interval_made params draws made ok
  have keyed : op.Keyed := by
    cases op with
    | join => cases found
    | leave => cases found
    | put => exact Or.inl rfl
    | get => exact Or.inr rfl
  rw [interval_pushes op keyed] at found
  cases found
  exact filled_fresh _ _ _ (by rw [kind]; exact keyed) queue (by rw [kind]; exact randomEvents_length _ _ _ _ _)
    (randomEvents_time _ _ _ _ _) (by rw [kind]; rfl)

theorem now_fresh (params : Bytes) (draws : Draws) (made : Profile op × Draws)
    (ok : Now.make op params draws = .ok made) : made.1.Fresh := by
  obtain ⟨time,drawn,pushed,found,kind,queue⟩ := now_made params draws made ok
  have unkeyed : op = .join ∨ op = .leave := by
    cases op with
    | join => exact Or.inl rfl
    | leave => exact Or.inr rfl
    | put => cases found
    | get => cases found
  have times := now_time op _ _ pushed found
  obtain ⟨event,pushes⟩ := now_pushes op unkeyed time drawn
  rw [pushes] at found
  cases found
  exact filled_fresh _ _ _ (by rw [kind]; exact unkeyed) queue (by rw [kind]; rfl) times (by rw [kind]; rfl)

theorem poissonRandom_fresh (accepts : Distributions) (params : Bytes) (draws : Draws) (made : Profile op × Draws)
    (ok : PoissonRandom.make accepts op params draws = .ok made) : made.1.Fresh := by
  obtain ⟨setSize,lastEvent,_,kind,queue⟩ := poissonRandom_made params draws made accepts ok
  exact filled_fresh _ _ lastEvent (by rw [kind]; trivial) queue (by rw [kind]; exact randomEvents_length _ _ _ _ _)
    (randomEvents_time _ _ _ _ _) (by rw [kind]; rfl)

omit heap in
theorem weibullRandom_fresh (accepts : Distributions) (params : Bytes) (draws : Draws) (made : Profile op × Draws)
    (ok : WeibullRandom.make accepts op params draws = .ok made) : made.1.Fresh := by
  obtain ⟨setSize,_,kind,queue⟩ := weibullRandom_made params draws made accepts ok
  exact ⟨by rw [kind]; trivial,Or.inl ⟨by rw [queue]; rfl,setSize,kind⟩⟩

theorem makeProfile_fresh (accepts : Distributions) (text : Bytes) (draws : Draws) (made : Profile op × Draws)
    (ok : makeProfile accepts op text draws = .ok made) (generator : made.1.kind.IsGenerator) : made.1.Fresh := by
  obtain ⟨type,_,ok⟩ := makeProfile_made accepts text draws made ok
  cases type with
  | interval => exact interval_fresh _ draws made ok
  | now => exact now_fresh _ draws made ok
  | poissonRandom => exact poissonRandom_fresh accepts _ draws made ok
  | weibullRandom => exact weibullRandom_fresh accepts _ draws made ok
  | exact => cases exact_made _ draws made ok ▸ generator
  | fullDictionary =>
    obtain ⟨_,_,_,_,_,_,_,kind,_⟩ := fullDictionary_made _ draws made ok
    cases kind ▸ generator
  | none =>
    cases ok
    cases generator
  | nTimesRandom =>
    obtain ⟨_,_,_,_,_,_,_,kind,_⟩ := nTimesRandom_made _ draws made ok
    cases kind ▸ generator

theorem getEvents_whole (profile : Profile op) (currentTime : TimeUnit)
    (together : ∀ a ∈ profile.eventQueue.elements, ∀ b ∈ profile.eventQueue.elements, a.time = b.time) :
    (profile.getEvents currentTime).1 = [] ∧
        (profile.getEvents currentTime).2.eventQueue.elements.Perm profile.eventQueue.elements ∨
      (profile.getEvents currentTime).1.Perm profile.eventQueue.elements ∧
        (profile.getEvents currentTime).2.eventQueue.elements = [] := by
  apply PriorityQueue.popUpTo_together
  exact fun a first b second => congrArg UInt32.toNat (together a first b second)

end Profile

/-! ### Sessions -/

/-- A profile in use, the time of the last call, and the events it has pushed and returned so far. -/
structure Session (op : DhtOperation) where
  profile : Profile op
  clock : TimeUnit
  pushed : List (DhtEvent op)
  returned : List (DhtEvent op)

namespace Session

def start (profile : Profile op) (clock : TimeUnit) : Session op :=
  ⟨profile,clock,profile.eventQueue.elements,[]⟩

/-- One call at a time that is not before the last one. The time of a refill does not wrap. -/
inductive Step (session : Session op) : Session op → Prop
  | scheduleNextEvent (currentTime : TimeUnit) (draws : Draws) (scheduled : Scheduled op)
      (later : session.clock ≤ currentTime) (fits : session.profile.Fits currentTime draws)
      (ok : session.profile.scheduleNextEvent currentTime draws = .ok scheduled) :
      Step session ⟨scheduled.profile,currentTime,session.pushed ++ scheduled.pushed,session.returned⟩
  | getEvents (currentTime : TimeUnit) (later : session.clock ≤ currentTime) :
      Step session ⟨(session.profile.getEvents currentTime).2,currentTime,session.pushed,
        session.returned ++ (session.profile.getEvents currentTime).1⟩

/-- At most one batch is pending, polling again changes nothing, and the times that are
scheduled never go back. -/
structure Paced (batch : Nat) (session : Session op) : Prop where
  pending : session.profile.eventQueue.elements = [] ∨ session.profile.eventQueue.elements.length = batch
  together : ∀ a ∈ session.profile.eventQueue.elements, ∀ b ∈ session.profile.eventQueue.elements, a.time = b.time
  again : ∀ currentTime draws, session.clock ≤ currentTime → session.profile.Fits currentTime draws →
    ∃ scheduled, session.profile.scheduleNextEvent currentTime draws = .ok scheduled ∧
      ∀ later moreDraws, ∃ second, scheduled.profile.scheduleNextEvent later moreDraws = .ok second ∧
        second.time = scheduled.time ∧ second.pushed = [] ∧
        second.profile.eventQueue = scheduled.profile.eventQueue
  ordered : session.pushed.Pairwise (·.time ≤ ·.time)

structure Tied (batch : Nat) (session : Session op) : Prop where
  begun : 1 ≤ session.clock
  serves : session.profile.kind.Serves op
  size : session.profile.kind.batch = batch
  pending : session.profile.eventQueue.elements = [] ∨ session.profile.eventQueue.elements.length = batch
  queued : ∀ event ∈ session.profile.eventQueue.elements, event ∈ session.pushed ∧ 1 ≤ event.time
  last : ∀ event ∈ session.profile.eventQueue.elements, ∀ earlier ∈ session.pushed, earlier.time ≤ event.time
  past : session.profile.eventQueue.elements = [] → ∀ earlier ∈ session.pushed, earlier.time ≤ session.clock
  reached : ∀ earlier ∈ session.pushed, session.profile.kind.Reaches earlier.time
  positive : session.profile.kind.Reaches 1 ∨ batch = 0
  ordered : session.pushed.Pairwise (·.time ≤ ·.time)

omit heap in
theorem Tied.due (batch : Nat) (session : Session op) (tied : session.Tied batch)
    (due : session.profile.eventQueue.getNextEventTime = 0) : session.profile.eventQueue.elements = [] := by
  refine EventQueue.empty_of_zero _ (fun event member zero => ?_) due
  have positive := (tied.queued event member).2
  rw [zero] at positive
  exact absurd positive (by decide)

omit heap in
theorem Tied.start (made : Profile op) (fresh : made.Fresh)
    (reached : ∀ event ∈ made.eventQueue.elements, made.kind.Reaches event.time)
    (positive : ∀ event ∈ made.eventQueue.elements, 1 ≤ event.time) :
    (start made 1).Tied made.kind.batch := by
  have together : ∀ a ∈ made.eventQueue.elements, ∀ b ∈ made.eventQueue.elements, a.time ≤ b.time := by
    intro a first b second
    rcases fresh.events with ⟨empty,_⟩ | ⟨_,time,times,_⟩
    · simp [empty] at first
    · rw [times a first,times b second]
      exact UInt32.le_refl _
  have begun : made.kind.Reaches 1 ∨ made.kind.batch = 0 := by
    rcases fresh.events with ⟨_,setSize,kind⟩ | ⟨count,_⟩
    · exact Or.inl (by rw [kind]; trivial)
    · cases listed : made.eventQueue.elements with
      | nil => exact Or.inr (by rw [← count,listed]; rfl)
      | cons event events =>
        have member : event ∈ made.eventQueue.elements := by simp [listed]
        exact Or.inl (made.kind.reaches_le _ _ (positive event member) (reached event member))
  have none : made.eventQueue.elements = [] → ∀ earlier ∈ made.eventQueue.elements, earlier.time ≤ 1 := by
    intro empty
    simp [empty]
  exact {
    begun := UInt32.le_refl _
    serves := fresh.serves
    size := rfl
    pending := fresh.events.imp And.left And.left
    queued := fun event member => ⟨member,positive event member⟩
    last := fun event member earlier pushed => together earlier pushed event member
    past := none
    reached := reached
    positive := begun
    ordered := List.pairwise_of_forall_mem_list together }

theorem Tied.refill (batch : Nat) (session : Session op) (tied : session.Tied batch) (currentTime : TimeUnit)
    (draws : Draws) (scheduled : Scheduled op) (later : session.clock ≤ currentTime)
    (fits : session.profile.Fits currentTime draws)
    (ok : session.profile.scheduleNextEvent currentTime draws = .ok scheduled)
    (polls : session.profile.Polls currentTime draws scheduled)
    (due : session.profile.eventQueue.getNextEventTime = 0) :
    Tied batch ⟨scheduled.profile,currentTime,session.pushed ++ scheduled.pushed,session.returned⟩ := by
  have empty := tied.due batch session due
  obtain ⟨count,times,kind⟩ := polls.refills due
  obtain ⟨here,kept⟩ := session.profile.scheduleNextEvent_advances currentTime draws scheduled ok fits
  have moved : scheduled.profile.eventQueue.elements.Perm scheduled.pushed := by
    have whole := (session.profile.scheduleNextEvent_spec currentTime draws scheduled ok).2
    rwa [empty,List.append_nil] at whole
  have behind : ∀ earlier ∈ session.pushed, ∀ event ∈ scheduled.pushed, earlier.time ≤ event.time :=
    fun earlier pushed => (kept _ (tied.reached earlier pushed)).2
      (UInt32.le_trans (tied.past empty earlier pushed) later)
  have together : ∀ a ∈ scheduled.pushed, ∀ b ∈ scheduled.pushed, a.time ≤ b.time := by
    intro a first b second
    rw [times a first,times b second]
    exact UInt32.le_refl _
  have begun := UInt32.le_trans tied.begun later
  have size : scheduled.pushed.length = batch := count.trans tied.size
  refine {
    begun := begun
    serves := by rw [kind]; exact ProfileKind.refilled_serves op _ _ tied.serves
    size := by rw [kind,ProfileKind.refilled_batch]; exact tied.size
    pending := Or.inr (moved.length_eq.trans size)
    queued := ?_
    last := ?_
    past := ?_
    reached := ?_
    positive := tied.positive.imp_left fun reaches => (kept 1 reaches).1
    ordered := List.pairwise_append.mpr ⟨tied.ordered,List.pairwise_of_forall_mem_list together,behind⟩ }
  · intro event member
    have pushed := moved.subset member
    refine ⟨List.mem_append_right _ pushed,?_⟩
    rcases tied.positive with reaches | none
    · exact (kept 1 reaches).2 begun event pushed
    · rw [List.eq_nil_of_length_eq_zero (size.trans none)] at pushed
      cases pushed
  · intro event member earlier pushed
    rcases List.mem_append.mp pushed with before | now
    · exact behind earlier before event (moved.subset member)
    · exact together earlier now event (moved.subset member)
  · intro none earlier pushed
    have silent : scheduled.pushed = [] := List.nil_perm.mp (none ▸ moved)
    simp only [silent,List.append_nil] at pushed
    exact UInt32.le_trans (tied.past empty earlier pushed) later
  · intro earlier pushed
    rcases List.mem_append.mp pushed with before | now
    · exact (kept _ (tied.reached earlier before)).1
    · exact here earlier now

theorem Tied.wait (batch : Nat) (session : Session op) (tied : session.Tied batch) (currentTime : TimeUnit)
    (draws : Draws) (scheduled : Scheduled op) (later : session.clock ≤ currentTime)
    (polls : session.profile.Polls currentTime draws scheduled)
    (waiting : session.profile.eventQueue.getNextEventTime ≠ 0) :
    Tied batch ⟨scheduled.profile,currentTime,session.pushed ++ scheduled.pushed,session.returned⟩ := by
  obtain ⟨silent,kind⟩ := polls.waits waiting
  have queue := polls.queue
  rw [silent] at queue
  change scheduled.profile.eventQueue = session.profile.eventQueue at queue
  rw [silent,List.append_nil]
  exact {
    begun := UInt32.le_trans tied.begun later
    serves := by rw [kind]; exact tied.serves
    size := by rw [kind]; exact tied.size
    pending := by rw [queue]; exact tied.pending
    queued := by rw [queue]; exact tied.queued
    last := by rw [queue]; exact tied.last
    past := by
      rw [queue]
      exact fun empty earlier pushed => UInt32.le_trans (tied.past empty earlier pushed) later
    reached := by rw [kind]; exact tied.reached
    positive := by rw [kind]; exact tied.positive
    ordered := tied.ordered }

omit heap in
theorem Tied.together (batch : Nat) (session : Session op) (tied : session.Tied batch) :
    ∀ a ∈ session.profile.eventQueue.elements, ∀ b ∈ session.profile.eventQueue.elements, a.time = b.time := by
  intro a first b second
  apply UInt32.le_antisymm
  · exact tied.last b second a (tied.queued a first).1
  · exact tied.last a first b (tied.queued b second).1

theorem Tied.pop (batch : Nat) (session : Session op) (tied : session.Tied batch) (currentTime : TimeUnit)
    (later : session.clock ≤ currentTime) :
    Tied batch ⟨(session.profile.getEvents currentTime).2,currentTime,session.pushed,
      session.returned ++ (session.profile.getEvents currentTime).1⟩ := by
  have whole := PriorityQueue.popUpTo_perm session.profile.eventQueue currentTime.toNat
  have stays : (session.profile.getEvents currentTime).2.eventQueue.elements ⊆ session.profile.eventQueue.elements :=
    fun _ member => whole.subset (List.mem_append_right _ member)
  have split := session.profile.getEvents_whole currentTime (tied.together batch session)
  refine {
    begun := UInt32.le_trans tied.begun later
    serves := tied.serves
    size := tied.size
    pending := ?_
    queued := fun event member => tied.queued event (stays member)
    last := fun event member => tied.last event (stays member)
    past := fun none earlier pushed => ?_
    reached := tied.reached
    positive := tied.positive
    ordered := tied.ordered }
  · rcases split with ⟨_,kept⟩ | ⟨_,none⟩
    · refine tied.pending.imp (fun empty => ?_) kept.length_eq.trans
      rw [empty] at kept
      exact List.perm_nil.mp kept
    · exact Or.inl none
  · cases listed : session.profile.eventQueue.elements with
    | nil => exact UInt32.le_trans (tied.past listed earlier pushed) later
    | cons event events =>
      have member : event ∈ session.profile.eventQueue.elements := by simp [listed]
      rcases split with ⟨_,kept⟩ | ⟨popped,_⟩
      · change (session.profile.getEvents currentTime).2.eventQueue.elements = [] at none
        rw [none,listed] at kept
        cases List.nil_perm.mp kept
      · have due := PriorityQueue.popUpTo_due session.profile.eventQueue currentTime.toNat event
          (popped.symm.subset member)
        exact UInt32.le_trans (tied.last event member earlier pushed) (UInt32.le_iff_toNat_le.mpr due)

theorem Tied.step (batch : Nat) (before after : Session op) (tied : before.Tied batch) (step : before.Step after) :
    after.Tied batch := by
  cases step with
  | scheduleNextEvent currentTime draws scheduled later fits ok =>
    obtain ⟨other,same,polls⟩ := before.profile.generator_polls currentTime draws tied.serves
    cases ok.symm.trans same
    by_cases due : before.profile.eventQueue.getNextEventTime = 0
    · exact tied.refill batch before currentTime draws scheduled later fits ok polls due
    · exact tied.wait batch before currentTime draws scheduled later polls due
  | getEvents currentTime later => exact tied.pop batch before currentTime later

theorem Tied.again (batch : Nat) (session : Session op) (tied : session.Tied batch) (later : TimeUnit)
    (moreDraws : Draws) (time : session.profile.eventQueue.elements = [] → batch = 0) :
    ∃ second, session.profile.scheduleNextEvent later moreDraws = .ok second ∧
      second.time = session.profile.eventQueue.getNextEventTime ∧ second.pushed = [] ∧
      second.profile.eventQueue = session.profile.eventQueue := by
  obtain ⟨second,ok,polls⟩ := session.profile.generator_polls later moreDraws tied.serves
  have silent : second.pushed = [] := by
    by_cases due : session.profile.eventQueue.getNextEventTime = 0
    · have count := (polls.refills due).1
      rw [tied.size,time (tied.due batch session due)] at count
      exact List.eq_nil_of_length_eq_zero count
    · exact (polls.waits due).1
  have queue := polls.queue
  rw [silent] at queue
  change second.profile.eventQueue = session.profile.eventQueue at queue
  exact ⟨second,ok,queue ▸ polls.time,silent,queue⟩

theorem Tied.paced (batch : Nat) (session : Session op) (tied : session.Tied batch) : session.Paced batch := by
  refine ⟨tied.pending,tied.together batch session,fun currentTime draws later fits => ?_,tied.ordered⟩
  obtain ⟨scheduled,ok,polls⟩ := session.profile.generator_polls currentTime draws tied.serves
  refine ⟨scheduled,ok,fun afterwards moreDraws => ?_⟩
  have next := tied.step batch session _ (.scheduleNextEvent currentTime draws scheduled later fits ok)
  have full : scheduled.profile.eventQueue.elements = [] → batch = 0 := by
    intro empty
    have whole := (session.profile.scheduleNextEvent_spec currentTime draws scheduled ok).2
    rw [empty] at whole
    obtain ⟨silent,none⟩ := List.append_eq_nil_iff.mp (List.nil_perm.mp whole)
    have count := (polls.refills (EventQueue.getNextEventTime_empty _ none)).1
    rw [silent,tied.size] at count
    exact count.symm
  rw [polls.time]
  exact next.again batch _ afterwards moreDraws full

end Session

/-- Over any calls of a generator whose first event is not at time zero at most one batch is
pending, a second poll changes nothing, and the scheduled times never go back. A batch
is one event, and for an interval as many as the repetitions, the third word of its text. -/
theorem generator_paced (accepts : Distributions) (text : Bytes) (draws : Draws) (made : Profile op × Draws)
    (ok : Profile.makeProfile accepts op text draws = .ok made) (generator : made.1.kind.IsGenerator)
    (positive : ∀ event ∈ made.1.eventQueue.elements, 1 ≤ event.time) (session : Session op)
    (run : ReflTransGen Session.Step (Session.start made.1 1) session) : session.Paced made.1.kind.batch := by
  have fresh := Profile.makeProfile_fresh accepts text draws made ok generator
  have reached := Profile.makeProfile_reaches accepts op text draws made ok
  have tied := run_invariant run (Session.Tied.start made.1 fresh reached positive) (Session.Tied.step made.1.kind.batch)
  exact tied.paced made.1.kind.batch session

end

theorem two_gets_run (clock : TimeUnit) (first : clock ≤ 2) : ∃ (made : Profile .get × Draws) (session : Session .get),
    @Profile.makeProfile plainHeap ⟨fun _ => true,fun _ _ => true⟩ .get (ascii "interval 3 2 5 1") (fun n => n) = .ok made ∧
      made.1.kind = .interval 3 1 5 2 ∧ (∀ event ∈ made.1.eventQueue.elements, 1 ≤ event.time) ∧
      ReflTransGen (@Session.Step plainHeap .get) (Session.start made.1 clock) session ∧
      session.returned.map (·.time) = [1,1] ∧ session.profile.eventQueue.elements.map (·.time) = [6,6] := by
  let heap := plainHeap
  obtain ⟨made,ok,facts⟩ := ok_of_any
    (@Profile.makeProfile plainHeap ⟨fun _ => true,fun _ _ => true⟩ .get (ascii "interval 3 2 5 1") (fun n => n))
    (fun made => made.1.kind = .interval 3 1 5 2 ∧ (∀ event ∈ made.1.eventQueue.elements, 1 ≤ event.time) ∧
      (made.1.getEvents 2).1.map (·.time) = [1,1] ∧
      ((made.1.getEvents 2).2.scheduleNextEvent 3 fun n => n).toOption.any fun scheduled =>
        scheduled.profile.eventQueue.elements.map (·.time) = [6,6])
    (by decide +kernel)
  obtain ⟨kind,positive,returned,polled⟩ := of_decide_eq_true facts
  obtain ⟨scheduled,poll,pending⟩ := ok_of_any _ _ polled
  have fits : (made.1.getEvents 2).2.Fits 3 fun n => n := by
    have kept : (made.1.getEvents 2).2.kind = .interval 3 1 5 2 := kind
    intro due
    rw [kept]
    decide
  have second : (2 : TimeUnit) ≤ 3 := by decide
  have popped := ReflTransGen.single (Session.Step.getEvents 2 first : (Session.start made.1 clock).Step _)
  have run := popped.tail (.scheduleNextEvent 3 _ scheduled second fits poll)
  exact ⟨made,_,ok,kind,positive,run,returned,of_decide_eq_true pending⟩

theorem two_gets_paced : ∃ session : Session .get, session.returned.map (·.time) = [1,1] ∧
    @Session.Paced plainHeap .get 2 session := by
  obtain ⟨made,session,ok,kind,positive,run,returned,_⟩ := two_gets_run 1 (by decide)
  refine ⟨session,returned,?_⟩
  have paced := @generator_paced plainHeap .get _ _ _ made ok (by rw [kind]; trivial) positive session run
  rwa [kind] at paced

end Dhtperf
