import Dhtperf.DhtperfController.Acting
import Dhtperf.DhtperfController.Modes
import Dhtperf.DhtperfController.Refills
import Mathlib.Data.List.Perm.Subperm

/-! The order in which events are run. Everything that was popped stays before
everything still queued, across batches and refills, as long as no refill wraps. -/
namespace Dhtperf
open Library DhtNode

/-! ### One kind of event -/

/-- The popped events of a kind in order, what is queued, and everything pushed. -/
structure Tidy {op : DhtOperation} (kind : ProfileKind) (pushed queue seen : List (DhtEvent op)) : Prop where
  kept : (seen ++ queue).Subperm pushed
  sorted : seen.Pairwise (fun a b => a.time ≤ b.time)
  ahead : ∀ x ∈ seen, ∀ y ∈ queue, x.time ≤ y.time
  reached : ∀ x ∈ pushed, kind.Reaches x.time

namespace Tidy
variable {op : DhtOperation} {kind : ProfileKind} {pushed queue seen : List (DhtEvent op)}

theorem drop (rest : List (DhtEvent op)) (tidy : Tidy kind pushed queue (seen ++ rest)) :
    Tidy kind pushed queue seen where
  kept := ((List.sublist_append_left seen rest).append_right queue).subperm.trans tidy.kept
  sorted := tidy.sorted.sublist (List.sublist_append_left seen rest)
  ahead := fun x member => tidy.ahead x (List.mem_append_left rest member)
  reached := tidy.reached

variable [heap : StdHeap]

theorem pop (profile : Profile op) (currentTime : TimeUnit)
    (tidy : Tidy kind pushed profile.eventQueue.elements seen) :
    Tidy kind pushed (profile.getEvents currentTime).2.eventQueue.elements
      (seen ++ (profile.getEvents currentTime).1) := by
  have split := PriorityQueue.popUpTo_perm profile.eventQueue currentTime.toNat
  have sorted := PriorityQueue.popUpTo_sorted profile.eventQueue currentTime.toNat
  have due := PriorityQueue.popUpTo_due profile.eventQueue currentTime.toNat
  have left := PriorityQueue.popUpTo_left profile.eventQueue currentTime.toNat
  have inside : ∀ x, x ∈ (profile.getEvents currentTime).1 ∨
      x ∈ (profile.getEvents currentTime).2.eventQueue.elements → x ∈ profile.eventQueue.elements :=
    fun x member => split.subset (List.mem_append.mpr member)
  refine ⟨?_,?_,?_,tidy.reached⟩
  · rw [List.append_assoc]
    exact (split.append_left seen).subperm.trans tidy.kept
  · refine List.pairwise_append.mpr ⟨tidy.sorted,?_,fun x member y popped => ?_⟩
    · exact sorted.imp fun below => UInt32.le_iff_toNat_le.mpr below
    · exact tidy.ahead x member y (inside y (Or.inl popped))
  · intro x member y queued
    rcases List.mem_append.mp member with earlier | popped
    · exact tidy.ahead x earlier y (inside y (Or.inr queued))
    · exact UInt32.le_iff_toNat_le.mpr (Nat.le_of_lt (Nat.lt_of_le_of_lt (due x popped) (left y queued)))

theorem refill (profile : Profile op) (currentTime : TimeUnit) (draws : Draws) (scheduled : Scheduled op)
    (ok : profile.scheduleNextEvent currentTime draws = .ok scheduled)
    (fits : profile.Fits currentTime draws) (past : ∀ x ∈ seen, x.time ≤ currentTime)
    (tidy : Tidy profile.kind pushed profile.eventQueue.elements seen) :
    Tidy scheduled.profile.kind (pushed ++ scheduled.pushed) scheduled.profile.eventQueue.elements seen := by
  have grown := (Profile.scheduleNextEvent_spec profile currentTime draws scheduled ok).2
  obtain ⟨here,further⟩ := Profile.scheduleNextEvent_advances profile currentTime draws scheduled ok fits
  have known : ∀ x ∈ seen, profile.kind.Reaches x.time := fun x member =>
    tidy.reached x (tidy.kept.subset (List.mem_append_left _ member))
  refine ⟨?_,tidy.sorted,?_,?_⟩
  · have moved : (seen ++ scheduled.profile.eventQueue.elements).Perm
        ((seen ++ profile.eventQueue.elements) ++ scheduled.pushed) := by
      rw [List.append_assoc]
      exact (grown.trans List.perm_append_comm).append_left seen
    exact moved.subperm.trans ((List.subperm_append_right scheduled.pushed).mpr tidy.kept)
  · intro x member y queued
    rcases List.mem_append.mp (grown.subset queued) with fresh | old
    · exact (further x.time (known x member)).2 (past x member) y fresh
    · exact tidy.ahead x member y old
  · intro x member
    rcases List.mem_append.mp member with old | fresh
    · exact (further x.time (tidy.reached x old)).1
    · exact here x fresh

end Tidy

/-! ### The whole loop -/

section
variable [heap : StdHeap]

def ControllerWorkloadProfile.Fits (workload : ControllerWorkloadProfile) (currentTime : TimeUnit)
    (connected : Bool) (draws : Draws) : Prop :=
  ∀ op ∈ modeOperations connected, ∀ before, workload.drawsFor currentTime draws op = .ok before →
    (workload.profile op).Fits currentTime before

namespace Loop

omit heap in
def ranEvents (s : Loop) (op : DhtOperation) : List (DhtEvent op) := (s.executed op).map Executed.event

omit heap in
def waiting (s : Loop) (op : DhtOperation) : List (DhtEvent op) :=
  match s.pc with
  | .batch _ pending => pending op
  | _ => []

omit heap in
def seen (s : Loop) (op : DhtOperation) : List (DhtEvent op) := s.ranEvents op ++ s.waiting op

/-- A pass that goes on to poll the profiles refills them without wrapping. -/
def RefillsFit (before after : Loop) : Prop :=
  before.pc = .head → (∀ ending, after.pc ≠ .ended ending) →
    before.workload.Fits after.elapsed before.dhtNode.connected before.draws

/-- Events leave in order, in time, and puts and gets find a connected node. -/
structure Orderly (s : Loop) : Prop where
  paced : Paced s
  tidy : ∀ op, Tidy (s.profile op).kind (s.pushed op) (s.queued op) (s.seen op)
  past : (∀ ending, s.pc ≠ .ended ending) → ∀ op, ∀ x ∈ s.seen op, x.time ≤ s.elapsed
  ready : ∀ poppedAt pending, s.pc = .batch poppedAt pending → ∀ op, ∀ x ∈ pending op,
    x.time ≤ poppedAt ∧ (op = .put ∨ op = .get → s.dhtNode.connected = true)
  runs : ∀ op, ∀ run ∈ s.executed op,
    run.event.time ≤ run.poppedAt ∧ (op = .put ∨ op = .get → run.connected = true)

omit heap in
theorem seen_idle (s : Loop) (op : DhtOperation) (idle : ∀ poppedAt pending, s.pc ≠ .batch poppedAt pending) :
    s.seen op = s.ranEvents op := by
  unfold seen waiting
  split
  next poppedAt pending here => exact absurd here (idle poppedAt pending)
  next => exact List.append_nil _

omit heap in
theorem ran_seen (s : Loop) (poppedAt : TimeUnit) (pending : (op : DhtOperation) → List (DhtEvent op))
    (op : DhtOperation) (event : DhtEvent op) (rest : List (DhtEvent op)) (node : DhtNode) (reading : Nat)
    (pc : Pc) (here : s.pc = .batch poppedAt pending) (next : pending op = event :: rest)
    (check : pc = .ended .returned ∨ pc = .batch poppedAt (Function.update pending op rest))
    (other : DhtOperation) :
    ∃ dropped, s.seen other = (s.ran poppedAt event node reading pc).seen other ++ dropped := by
  have before : s.seen other = s.ranEvents other ++ pending other := by
    unfold seen waiting
    rw [here]
  rw [before]
  by_cases same : other = op
  · subst same
    have history : (s.ran poppedAt event node reading pc).ranEvents other = s.ranEvents other ++ [event] := by
      unfold ranEvents
      rw [ran_executed,List.map_append,List.map_singleton]
    rcases check with rfl | rfl
    · refine ⟨rest,?_⟩
      rw [seen_idle _ other (by intro _ _ same; cases same),history,next,List.append_assoc]
      rfl
    · refine ⟨[],?_⟩
      have after : (s.ran poppedAt event node reading
          (.batch poppedAt (Function.update pending other rest))).waiting other = rest :=
        Function.update_self ..
      unfold seen
      rw [history,after,next,List.append_nil,List.append_assoc]
      rfl
  · have history : (s.ran poppedAt event node reading pc).ranEvents other = s.ranEvents other := by
      unfold ranEvents
      rw [ran_other s poppedAt event node reading pc other same]
    rcases check with rfl | rfl
    · refine ⟨pending other,?_⟩
      rw [seen_idle _ other (by intro _ _ same; cases same),history]
    · refine ⟨[],?_⟩
      have after : (s.ran poppedAt event node reading
          (.batch poppedAt (Function.update pending op rest))).waiting other = pending other :=
        Function.update_of_ne same ..
      unfold seen
      rw [history,after,List.append_nil]

theorem refresh_tidy (s : Loop) (orderly : Orderly s) (reading : Nat) (polled : Polled)
    (here : s.pc = .head) (later : s.clock ≤ reading) (more : (s.readClock reading).timeUp = false)
    (ok : s.workload.getNextEventTime (s.readClock reading).elapsed s.dhtNode.connected s.draws = .ok polled)
    (fits : s.workload.Fits (s.readClock reading).elapsed s.dhtNode.connected s.draws) (op : DhtOperation) :
    Tidy (polled.profile op).kind (s.pushed op ++ polled.pushed op) (polled.profile op).eventQueue.elements
        (s.ranEvents op) ∧
      ∀ x ∈ s.ranEvents op, x.time ≤ (s.readClock reading).elapsed := by
  have tidy := orderly.tidy op
  have past := orderly.past (by simp [here]) op
  rw [seen_idle s op (by simp [here])] at tidy past
  have passed := readClock_later s reading (orderly.paced.close (by simp [here])) later more
  have past : ∀ x ∈ s.ranEvents op, x.time ≤ (s.readClock reading).elapsed :=
    fun x member => UInt32.le_trans (past x member) passed
  refine ⟨?_,past⟩
  have polls := ControllerWorkloadProfile.getNextEventTime_polls s.workload _ _ _ polled ok op
  split at polls
  next mode =>
    obtain ⟨before,scheduled,drawn,found,profile,pushed,_⟩ := polls
    rw [profile,pushed]
    exact Tidy.refill (s.profile op) _ before scheduled found (fits op mode before drawn) past tidy
  next =>
    rw [polls.1,polls.2,List.append_nil]
    exact tidy

theorem popBatch_tidy (s : Loop) (op : DhtOperation)
    (tidy : Tidy (s.profile op).kind (s.pushed op) (s.queued op) (s.ranEvents op)) :
    Tidy (s.popBatch.profile op).kind (s.popBatch.pushed op) (s.popBatch.queued op) (s.popBatch.seen op) := by
  by_cases mode : op ∈ modeOperations s.dhtNode.connected
  · have left : s.popBatch.profile op = ((s.profile op).getEvents s.elapsed).2 := if_pos mode
    have popped : s.popBatch.waiting op = ((s.profile op).getEvents s.elapsed).1 := if_pos mode
    unfold seen queued
    rw [left,popped]
    exact Tidy.pop (s.profile op) s.elapsed tidy
  · have left : s.popBatch.profile op = s.profile op := if_neg mode
    have popped : s.popBatch.waiting op = [] := if_neg mode
    unfold seen queued
    rw [left,popped,List.append_nil]
    exact tidy

theorem popBatch_due (s : Loop) (op : DhtOperation) (x : DhtEvent op) (member : x ∈ s.popBatch.waiting op) :
    x.time ≤ s.elapsed ∧ s.dhtNode.connected = wanted op := by
  by_cases mode : op ∈ modeOperations s.dhtNode.connected
  · have popped : s.popBatch.waiting op = ((s.profile op).getEvents s.elapsed).1 := if_pos mode
    rw [popped] at member
    exact ⟨UInt32.le_iff_toNat_le.mpr (PriorityQueue.popUpTo_due _ _ x member),mode_wanted _ op mode⟩
  · have popped : s.popBatch.waiting op = [] := if_neg mode
    simp [popped] at member

omit heap in
theorem wanted_data (op : DhtOperation) (data : op = .put ∨ op = .get) : wanted op = true := by
  rcases data with rfl | rfl <;> rfl

omit heap in
theorem idle_orderly (s after : Loop) (orderly : Orderly s) (paced : Paced after)
    (executed : after.executed = s.executed) (pushed : after.pushed = s.pushed) (workload : after.workload = s.workload)
    (out : ∀ poppedAt pending, after.pc ≠ .batch poppedAt pending)
    (running : (∀ ending, after.pc ≠ .ended ending) → (∀ ending, s.pc ≠ .ended ending) ∧ after.elapsed = s.elapsed) :
    Orderly after := by
  have kept : ∀ op, after.ranEvents op = s.ranEvents op := by simp [ranEvents,executed]
  refine ⟨paced,fun op => ?_,fun going op x member => ?_,fun _ _ here => absurd here (out _ _),?_⟩
  · rw [seen_idle after op out,kept,pushed]
    unfold queued profile
    rw [workload]
    exact Tidy.drop (s.waiting op) (orderly.tidy op)
  · rw [seen_idle after op out,kept] at member
    rw [(running going).2]
    exact orderly.past (running going).1 op x (List.mem_append_left _ member)
  · rw [executed]
    exact orderly.runs

omit heap in
theorem ran_ready (s : Loop) (orderly : Orderly s) (poppedAt : TimeUnit)
    (pending : (op : DhtOperation) → List (DhtEvent op)) (op : DhtOperation) (event : DhtEvent op)
    (rest : List (DhtEvent op)) (node : DhtNode) (reading : Nat) (pc : Pc) (here : s.pc = .batch poppedAt pending)
    (next : pending op = event :: rest) (other : DhtOperation) (run : Executed other)
    (member : run ∈ (s.ran poppedAt event node reading pc).executed other) :
    run.event.time ≤ run.poppedAt ∧ (other = .put ∨ other = .get → run.connected = true) := by
  by_cases same : other = op
  · subst same
    rw [ran_executed] at member
    rcases List.mem_append.mp member with earlier | now
    · exact orderly.runs other run earlier
    · rw [List.mem_singleton.mp now]
      exact orderly.ready poppedAt pending here other event (by simp [next])
  · rw [ran_other s poppedAt event node reading pc other same] at member
    exact orderly.runs other run member

omit heap in
/-- The node is still connected for the puts and gets that are left: leaves wait for them,
and joins never share a batch with them. -/
theorem rest_connected (s : Loop) (orderly : Orderly s) (poppedAt : TimeUnit)
    (pending : (op : DhtOperation) → List (DhtEvent op)) (op : DhtOperation) (attempts : List Attempt) (node : DhtNode)
    (here : s.pc = .batch poppedAt pending) (first : ∀ other, turn other < turn op → pending other = [])
    (returned : DhtNode.processEvent op s.dhtNode attempts = some (.ok node)) (other : DhtOperation)
    (x : DhtEvent other) (still : x ∈ pending other) (data : other = .put ∨ other = .get) : node.connected = true := by
  have online := (orderly.ready poppedAt pending here other x still).2 data
  have data' : op = .put ∨ op = .get := by
    have inTurn : ¬turn other < turn op := fun earlier => by simp [first other earlier] at still
    rcases data with rfl | rfl <;> cases op <;>
      first | exact Or.inl rfl | exact Or.inr rfl | exact absurd (by decide) inTurn
  have mode : s.dhtNode.connected = wanted op := online.trans (wanted_data op data').symm
  obtain ⟨_,same,left⟩ := processEvent_wanted op s.dhtNode attempts _ mode returned
  cases same
  exact left.trans (by rcases data' with rfl | rfl <;> rfl)

theorem moves_orderly (s after : Loop) (orderly : Orderly s) (moves : Moves s after)
    (fits : RefillsFit s after) : Orderly after := by
  have paced := moves_paced s after orderly.paced moves
  have idle (after : Loop) := idle_orderly s after orderly
  cases moves with
  | expired reading here up => exact idle _ paced rfl rfl rfl (fun _ _ => nofun) (fun going => absurd rfl (going .returned))
  | failed reading fault here =>
    exact idle _ paced rfl rfl rfl (fun _ _ => nofun) (fun going => absurd rfl (going (.fault fault)))
  | refused poppedAt pending op attempts fault here busy returned =>
    exact idle _ paced rfl rfl rfl (fun _ _ => nofun) (fun going => absurd rfl (going .wrongMode))
  | wake toWait reading here later =>
    exact idle _ paced rfl rfl rfl (fun _ _ => nofun) (fun _ => ⟨by simp [here],rfl⟩)
  | batchDone poppedAt pending here empty =>
    rcases afterEvents_cases s with same | ⟨toWait,same⟩
    · rw [same] at paced ⊢
      exact idle _ paced rfl rfl rfl (fun _ _ => nofun) (fun _ => ⟨by simp [here],rfl⟩)
    · rw [same] at paced ⊢
      exact idle _ paced rfl rfl rfl (fun _ _ => nofun) (fun _ => ⟨by simp [here],rfl⟩)
  | waits reading polled here later more ok early =>
    have fits := fits here nofun
    refine ⟨paced,fun op => ?_,fun _ op => ?_,nofun,orderly.runs⟩
    · rw [seen_idle _ op (by intro _ _ same; cases same)]
      exact (refresh_tidy s orderly reading polled here later more ok fits op).1
    · rw [seen_idle _ op (by intro _ _ same; cases same)]
      exact (refresh_tidy s orderly reading polled here later more ok fits op).2
  | popped reading polled here later more ok some due =>
    have fits := fits here nofun
    have tidy := refresh_tidy s orderly reading polled here later more ok fits
    refine ⟨paced,fun op => popBatch_tidy _ op (tidy op).1,fun _ op x member => ?_,?_,orderly.runs⟩
    · rcases List.mem_append.mp member with earlier | popped
      · exact (tidy op).2 x earlier
      · exact (popBatch_due _ op x popped).1
    · intro poppedAt pending same op x member
      cases same
      have due := popBatch_due _ op x member
      exact ⟨due.1,fun data => due.2.trans (wanted_data op data)⟩
  | handled poppedAt pending op event rest attempts node reading pc here first next returned later check =>
    have shape : pc = .ended .returned ∨ pc = .batch poppedAt (Function.update pending op rest) := by
      rcases check with ⟨_,same⟩ | ⟨_,same⟩
      · exact Or.inl same
      · exact Or.inr same
    have seen := ran_seen s poppedAt pending op event rest node reading pc here next shape
    refine ⟨paced,fun other => ?_,fun going other x member => ?_,?_,?_⟩
    · obtain ⟨dropped,same⟩ := seen other
      have tidy := orderly.tidy other
      rw [same] at tidy
      exact tidy.drop dropped
    · obtain ⟨dropped,same⟩ := seen other
      have old : x ∈ s.seen other := by
        rw [same]
        exact List.mem_append_left _ member
      have before := orderly.past (by simp [here]) other x old
      rcases check with ⟨_,rfl⟩ | ⟨more,rfl⟩
      · exact absurd rfl (going .returned)
      · have close := orderly.paced.close (by simp [here])
        exact UInt32.le_trans before (readClock_later s reading close later more)
    · intro poppedAt' pending' same other x member
      rcases check with ⟨_,rfl⟩ | ⟨_,rfl⟩
      · cases same
      cases same
      have still := mem_rest pending event rest next other x member
      refine ⟨(orderly.ready poppedAt pending here other x still).1,?_⟩
      exact rest_connected s orderly poppedAt pending op attempts node here first returned other x still
    · exact ran_ready s orderly poppedAt pending op event rest node reading pc here next

/-- In every run whose refills do not wrap, no event is run more often than it was
pushed, no event is popped early, puts and gets run connected, and each kind runs in
the order of its times. -/
theorem events_in_order (accepts : Distributions) (join leave put get : Bytes) (duration : TimeUnit)
    (draws : Draws) (first s : Loop) (accepted : start accepts join leave put get duration draws = .ok first)
    (run : Relation.ReflTransGen (fun before after => Step before after ∧ RefillsFit before after) first s)
    (op : DhtOperation) :
    (s.ranEvents op).Subperm (s.pushed op) ∧
    (∀ run ∈ s.executed op, run.event.time ≤ run.poppedAt) ∧
    (op = .put ∨ op = .get → ∀ run ∈ s.executed op, run.connected = true) ∧
    (s.ranEvents op).Pairwise (fun a b => a.time ≤ b.time) := by
  obtain ⟨profile,draws,rfl,made⟩ := start_enters accepts join leave put get duration draws first accepted
  have start : Orderly (enter profile duration draws) := by
    refine ⟨enter_paced profile duration draws,fun op => ?_,fun _ _ => nofun,nofun,fun _ => nofun⟩
    obtain ⟨text,before,after,ok⟩ := made op
    exact ⟨List.Subperm.refl _,List.Pairwise.nil,nofun,
      Profile.makeProfile_reaches accepts op text before _ ok⟩
  have orderly : Orderly s := by
    apply run_invariant run start
    intro before after orderly step
    exact moves_orderly before after orderly (step_moves before after step.1) step.2
  have tidy := Tidy.drop (s.waiting op) (orderly.tidy op)
  refine ⟨?_,fun run member => (orderly.runs op run member).1,
    fun data run member => (orderly.runs op run member).2 data,tidy.sorted⟩
  exact (List.sublist_append_left _ _).subperm.trans tidy.kept

end Loop
end

def ProfileKind.roomy : ProfileKind → Bool
  | .interval _ lastEventTime frequency _ => lastEventTime.toNat + frequency.toNat < 2^32
  | .poissonRandom _ _ => false
  | .weibullRandom _ => false
  | _ => true

namespace Loop

theorem roomy_fits (s after : Loop) (roomy : ∀ op, (s.profile op).kind.roomy = true) :
    @RefillsFit plainHeap s after := by
  intro _ _ op _ before _ _
  have room := roomy op
  change (s.workload.profile op).kind.roomy = true at room
  split
  next setSize lastEventTime frequency repetitions kind =>
    rw [kind] at room
    exact of_decide_eq_true room
  next setSize lastEvent kind =>
    rw [kind] at room
    cases room
  next setSize kind =>
    rw [kind] at room
    cases room
  next => trivial

def twoBatches : List Action :=
  [.pass 1,.event [⟨true,0,0,0⟩] 2,.batchDone,.pass 3,.wake 1000001,.pass 1000001,.event [⟨true,0,0,0⟩] 1000002,
    .event [⟨true,0,0,0⟩] 1000003,.event [⟨true,0,0,0⟩] 1000004,.batchDone,.pass 1000005,.wake 2000001,.pass 2000001,
    .event [⟨true,0,0,0⟩] 2000002,.event [⟨true,0,0,0⟩] 2000003,.event [⟨true,0,0,0⟩] 2000004]

theorem join_on_time : ∃ first s : Loop, @start plainHeap ⟨fun _ => true,fun _ _ => true⟩ (ascii "exact 1")
      (ascii "none") (ascii "interval 1 1 1 2") (ascii "interval 1 2 1 2") 10 (fun _ => 0) = .ok first ∧
    @Run plainHeap first s ∧ (s.executed .join).length = 1 ∧ (s.ranEvents .put).map (·.time) = [2,3] ∧
    (s.ranEvents .get).map (·.time) = [2,2,3,3] ∧ (s.ranEvents .get).Pairwise (fun a b => a.time ≤ b.time) ∧
    ∀ run ∈ s.executed .get, run.event.time ≤ run.poppedAt ∧ run.connected = true := by
  let heap := plainHeap
  obtain ⟨first,accepted,performed⟩ := ok_of_any
    (start ⟨fun _ => true,fun _ _ => true⟩ (ascii "exact 1") (ascii "none") (ascii "interval 1 1 1 2")
      (ascii "interval 1 2 1 2") 10 (fun _ => 0))
    (fun first => (perform act (fun s _ => ∀ op ∈ [DhtOperation.join,.leave,.put,.get], (s.profile op).kind.roomy = true)
      first twoBatches).any fun s => (s.executed .join).length = 1 ∧ (s.ranEvents .put).map (·.time) = [2,3] ∧
        (s.ranEvents .get).map (·.time) = [2,2,3,3]) (by decide +kernel)
  obtain ⟨s,steps,shape⟩ := perform_run _ _ _ _ _ performed
  obtain ⟨once,puts,gets⟩ := of_decide_eq_true shape
  have run : Relation.ReflTransGen (fun before after => Step before after ∧ RefillsFit before after) first s := by
    refine Relation.ReflTransGen.mono (fun before after step => ?_) _ _ steps
    obtain ⟨action,roomy,acted⟩ := step
    exact ⟨(step_act before after).mpr ⟨action,acted⟩,
      roomy_fits before after fun op => roomy op (by cases op <;> decide)⟩
  obtain ⟨_,due,connected,sorted⟩ := events_in_order _ _ _ _ _ _ _ _ _ accepted run .get
  exact ⟨first,s,accepted,Relation.ReflTransGen.mono (fun _ _ step => step.1) _ _ run,once,puts,gets,sorted,
    fun ran member => ⟨due ran member,connected (Or.inr rfl) ran member⟩⟩

end Loop
end Dhtperf
