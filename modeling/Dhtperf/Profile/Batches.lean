import Dhtperf.Profile.Generators

/-! The batches of an `Interval` profile. They are due at the start time and then once
every `frequency` seconds, and each of them is returned once and as a whole, whenever
the profile is polled and emptied. -/
namespace Dhtperf
open Library Utils Relation

def batchTimes (startTime frequency repetitions k : Nat) : List Nat :=
  (List.range k).flatMap fun i => List.replicate repetitions (startTime + i * frequency)

theorem batchTimes_succ (startTime frequency repetitions k : Nat) :
    batchTimes startTime frequency repetitions (k+1) =
      batchTimes startTime frequency repetitions k ++ List.replicate repetitions (startTime + k * frequency) := by
  simp [batchTimes,List.range_succ,List.flatMap_append]

section
variable [heap : StdHeap] {op : DhtOperation}

namespace Session

/-- The first `k` batches are returned, nothing else is, and the next one is the only one
that can be pending. -/
structure Delivers (startTime frequency repetitions : UInt32) (k : Nat) (session : Session op) : Prop where
  returned : session.returned.map (·.time.toNat) =
    batchTimes startTime.toNat frequency.toNat repetitions.toNat k
  kept : session.pushed.Perm (session.returned ++ session.profile.eventQueue.elements)
  pending : session.profile.eventQueue.elements = [] ∨
    session.profile.eventQueue.elements.map (·.time.toNat) =
      List.replicate repetitions.toNat (startTime.toNat + k * frequency.toNat)
  whole : ∀ currentTime, (session.profile.getEvents currentTime).1.Perm
    (if startTime.toNat + k * frequency.toNat ≤ currentTime.toNat then session.profile.eventQueue.elements else [])
  next : ∀ currentTime draws, session.clock ≤ currentTime → session.profile.Fits currentTime draws →
    ∃ scheduled, session.profile.scheduleNextEvent currentTime draws = .ok scheduled ∧
      scheduled.time.toNat = startTime.toNat + k * frequency.toNat

/-- The last time the profile remembers is that of the pending batch, or of the batch
before it when nothing is pending. -/
structure Counts (setSize startTime frequency repetitions : UInt32) (k : Nat) (session : Session op) : Prop where
  keyed : op.Keyed
  returned : session.returned.map (·.time.toNat) =
    batchTimes startTime.toNat frequency.toNat repetitions.toNat k
  kept : session.pushed.Perm (session.returned ++ session.profile.eventQueue.elements)
  memory : ∃ lastEventTime, session.profile.kind = .interval setSize lastEventTime frequency repetitions ∧
    (session.profile.eventQueue.elements = [] ∧
        lastEventTime.toNat + frequency.toNat = startTime.toNat + k * frequency.toNat ∨
      session.profile.eventQueue.elements.map (·.time.toNat) =
          List.replicate repetitions.toNat (startTime.toNat + k * frequency.toNat) ∧
        lastEventTime.toNat = startTime.toNat + k * frequency.toNat)

section
variable {setSize startTime frequency repetitions : UInt32} {k : Nat} {session : Session op}
variable (counts : session.Counts setSize startTime frequency repetitions k)
include counts

omit heap in
theorem Counts.times : ∀ event ∈ session.profile.eventQueue.elements,
    event.time.toNat = startTime.toNat + k * frequency.toNat := by
  intro event member
  obtain ⟨_,_,⟨empty,_⟩ | ⟨times,_⟩⟩ := counts.memory
  · simp [empty] at member
  · exact (List.eq_replicate_iff.mp times).2 _ (List.mem_map_of_mem member)

theorem Counts.popped (currentTime : TimeUnit) :
    (startTime.toNat + k * frequency.toNat ≤ currentTime.toNat ∧
      (session.profile.getEvents currentTime).1.Perm session.profile.eventQueue.elements ∧
      (session.profile.getEvents currentTime).2.eventQueue.elements = []) ∨
    (currentTime.toNat < startTime.toNat + k * frequency.toNat ∧
      (session.profile.getEvents currentTime).1 = [] ∧
      (session.profile.getEvents currentTime).2.eventQueue.elements.Perm session.profile.eventQueue.elements) := by
  rcases Nat.lt_or_ge currentTime.toNat (startTime.toNat + k * frequency.toNat) with early | late
  · right
    refine ⟨early,PriorityQueue.popUpTo_none session.profile.eventQueue currentTime.toNat fun event member => ?_⟩
    rw [DhtEvent.ticks,counts.times event member]
    exact early
  · left
    refine ⟨late,PriorityQueue.popUpTo_all session.profile.eventQueue currentTime.toNat fun event member => ?_⟩
    rw [DhtEvent.ticks,counts.times event member]
    exact late

omit heap in
theorem Counts.empty (late : 1 ≤ startTime) (due : session.profile.eventQueue.getNextEventTime = 0) :
    session.profile.eventQueue.elements = [] := by
  refine EventQueue.empty_of_zero _ (fun event member zero => ?_) due
  have time := counts.times event member
  have positive := UInt32.le_iff_toNat_le.mp late
  simp only [zero,UInt32.toNat_zero,UInt32.toNat_one] at time positive
  omega

omit heap in
theorem Counts.answers (pending : session.profile.eventQueue.elements ≠ []) :
    session.profile.eventQueue.getNextEventTime.toNat = startTime.toNat + k * frequency.toNat := by
  unfold EventQueue.getNextEventTime
  split
  next empty => exact absurd ((PriorityQueue.top_eq_none _).mp empty) pending
  next event found => exact counts.times event (PriorityQueue.top_least _ event found).1

omit counts heap in
theorem Counts.fill (keyed : op.Keyed) (after : Session op) (returned : after.returned.map (·.time.toNat) =
      batchTimes startTime.toNat frequency.toNat repetitions.toNat k)
    (kept : after.pushed.Perm (after.returned ++ after.profile.eventQueue.elements)) (lastEventTime : TimeUnit)
    (kind : after.profile.kind = .interval setSize lastEventTime frequency repetitions)
    (count : after.profile.eventQueue.elements.length = repetitions.toNat)
    (times : ∀ event ∈ after.profile.eventQueue.elements, event.time = lastEventTime)
    (next : lastEventTime.toNat = startTime.toNat + k * frequency.toNat) :
    after.Counts setSize startTime frequency repetitions k := by
  refine ⟨keyed,returned,kept,lastEventTime,kind,Or.inr ⟨List.eq_replicate_iff.mpr ⟨?_,fun time member => ?_⟩,next⟩⟩
  · rw [List.length_map]
    exact count
  · obtain ⟨event,queued,rfl⟩ := List.mem_map.mp member
    rw [times event queued]
    exact next

theorem Counts.schedule (late : 1 ≤ startTime) (some : 1 ≤ repetitions) (currentTime : TimeUnit) (draws : Draws)
    (fits : session.profile.Fits currentTime draws) :
    ∃ scheduled, session.profile.scheduleNextEvent currentTime draws = .ok scheduled ∧
      scheduled.time = scheduled.profile.eventQueue.getNextEventTime ∧
      scheduled.profile.eventQueue.elements ≠ [] ∧
      Counts setSize startTime frequency repetitions k
        ⟨scheduled.profile,currentTime,session.pushed ++ scheduled.pushed,session.returned⟩ := by
  obtain ⟨lastEventTime,kind,state⟩ := counts.memory
  obtain ⟨scheduled,ok,polls⟩ := session.profile.generator_polls currentTime draws (by rw [kind]; exact counts.keyed)
  have whole := (session.profile.scheduleNextEvent_spec currentTime draws scheduled ok).2
  have kept : (session.pushed ++ scheduled.pushed).Perm
      (session.returned ++ scheduled.profile.eventQueue.elements) := by
    refine (counts.kept.append_right scheduled.pushed).trans ?_
    rw [List.append_assoc]
    exact (List.perm_append_comm.trans whole.symm).append_left session.returned
  have positive := UInt32.le_iff_toNat_le.mp some
  rw [UInt32.toNat_one] at positive
  refine ⟨scheduled,ok,polls.time,?_⟩
  by_cases due : session.profile.eventQueue.getNextEventTime = 0
  · have empty := counts.empty late due
    obtain ⟨count,times,refilled⟩ := polls.refills due
    rw [kind] at count times refilled
    rw [empty,List.append_nil] at whole
    have size : scheduled.profile.eventQueue.elements.length = repetitions.toNat := whole.length_eq.trans count
    have before : lastEventTime.toNat + frequency.toNat = startTime.toNat + k * frequency.toNat := by
      rcases state with ⟨_,sum⟩ | ⟨full,_⟩
      · exact sum
      · have none := congrArg List.length full
        simp only [empty,List.map_nil,List.length_nil,List.length_replicate] at none
        omega
    have room : lastEventTime.toNat + frequency.toNat < 2^32 := by simpa only [kind] using fits due
    have sum : (lastEventTime + frequency).toNat = startTime.toNat + k * frequency.toNat := by
      rw [UInt32.toNat_add,Nat.mod_eq_of_lt room,before]
    refine ⟨fun none => ?_,Counts.fill counts.keyed _ counts.returned kept _ refilled size
      (fun event member => times event (whole.subset member)) sum⟩
    rw [none,List.length_nil] at size
    omega
  · obtain ⟨silent,same⟩ := polls.waits due
    have queue := polls.queue
    rw [silent] at queue kept
    change scheduled.profile.eventQueue = session.profile.eventQueue at queue
    refine ⟨fun none => due ?_,counts.keyed,counts.returned,by rw [silent]; exact kept,lastEventTime,
      by rw [same]; exact kind,by rw [queue]; exact state⟩
    rw [queue] at none
    exact EventQueue.getNextEventTime_empty _ none

theorem Counts.pop (currentTime : TimeUnit) : ∃ k', Counts setSize startTime frequency repetitions k'
    ⟨(session.profile.getEvents currentTime).2,currentTime,session.pushed,
      session.returned ++ (session.profile.getEvents currentTime).1⟩ := by
  obtain ⟨lastEventTime,kind,state⟩ := counts.memory
  have whole := PriorityQueue.popUpTo_perm session.profile.eventQueue currentTime.toNat
  have kept : session.pushed.Perm (session.returned ++ (session.profile.getEvents currentTime).1 ++
      (session.profile.getEvents currentTime).2.eventQueue.elements) := by
    rw [List.append_assoc]
    exact counts.kept.trans (whole.symm.append_left session.returned)
  have same : (session.profile.getEvents currentTime).2.kind = .interval setSize lastEventTime frequency repetitions := kind
  rcases state with ⟨empty,sum⟩ | ⟨full,last⟩
  · rw [empty] at whole
    obtain ⟨popped,left⟩ := List.append_eq_nil_iff.mp (List.perm_nil.mp whole)
    refine ⟨k,counts.keyed,?_,kept,lastEventTime,same,Or.inl ⟨left,sum⟩⟩
    change (session.profile.getEvents currentTime).1 = [] at popped
    rw [popped,List.append_nil]
    exact counts.returned
  · rcases counts.popped currentTime with ⟨_,popped,left⟩ | ⟨_,popped,left⟩
    · have batch := popped.map (·.time.toNat)
      rw [full,List.perm_replicate] at batch
      refine ⟨k+1,counts.keyed,?_,kept,lastEventTime,same,Or.inl ⟨left,by rw [last,Nat.succ_mul,Nat.add_assoc]⟩⟩
      rw [List.map_append,counts.returned,batchTimes_succ,batch]
    · have batch := left.map (·.time.toNat)
      rw [full,List.perm_replicate] at batch
      refine ⟨k,counts.keyed,?_,kept,lastEventTime,same,Or.inr ⟨batch,last⟩⟩
      rw [popped,List.append_nil]
      exact counts.returned

theorem Counts.delivers (late : 1 ≤ startTime) (some : 1 ≤ repetitions) :
    session.Delivers startTime frequency repetitions k := by
  obtain ⟨_,_,state⟩ := counts.memory
  refine ⟨counts.returned,counts.kept,state.imp And.left And.left,fun currentTime => ?_,
    fun currentTime draws _ fits => ?_⟩
  · rcases counts.popped currentTime with ⟨due,popped,_⟩ | ⟨early,popped,_⟩
    · rw [if_pos due]
      exact popped
    · rw [if_neg (Nat.not_le.mpr early),popped]
  · obtain ⟨scheduled,ok,time,pending,after⟩ := counts.schedule late some currentTime draws fits
    refine ⟨scheduled,ok,?_⟩
    rw [time]
    exact after.answers pending

end

omit heap in
theorem Counts.start (made : Profile op) (fresh : made.Fresh) (setSize startTime frequency repetitions : UInt32)
    (kind : made.kind = .interval setSize startTime frequency repetitions) :
    (start made 0).Counts setSize startTime frequency repetitions 0 := by
  have serves := fresh.serves
  rw [kind] at serves
  rcases fresh.events with ⟨_,_,other⟩ | ⟨count,time,times,last⟩
  · cases kind.symm.trans other
  · rw [kind] at count last
    cases last
    exact Counts.fill serves _ rfl (List.Perm.refl _) startTime kind count times (by omega)

theorem Counts.step (setSize startTime frequency repetitions : UInt32) (late : 1 ≤ startTime) (some : 1 ≤ repetitions)
    (before after : Session op) (counts : ∃ k, before.Counts setSize startTime frequency repetitions k)
    (step : before.Step after) : ∃ k, after.Counts setSize startTime frequency repetitions k := by
  obtain ⟨k,counts⟩ := counts
  cases step with
  | scheduleNextEvent currentTime draws scheduled later fits ok =>
    obtain ⟨other,same,_,_,next⟩ := counts.schedule late some currentTime draws fits
    cases ok.symm.trans same
    exact ⟨k,next⟩
  | getEvents currentTime later => exact counts.pop currentTime

end Session

/-- Over any calls of an interval profile every batch is returned once, as a whole and in its
turn, and a poll answers with the time of the first batch that is not returned. The numbers are
the members of the object; after the name its text has the size of the set, the repetitions,
the frequency and the start time, in this order. -/
theorem interval_delivers (accepts : Distributions) (text : Bytes) (draws : Draws) (made : Profile op × Draws)
    (ok : Profile.makeProfile accepts op text draws = .ok made) (setSize startTime frequency repetitions : UInt32)
    (kind : made.1.kind = .interval setSize startTime frequency repetitions) (late : 1 ≤ startTime)
    (some : 1 ≤ repetitions) (session : Session op)
    (run : ReflTransGen Session.Step (Session.start made.1 0) session) :
    ∃ k, session.Delivers startTime frequency repetitions k := by
  have fresh := Profile.makeProfile_fresh accepts text draws made ok (by rw [kind]; trivial)
  have start := Session.Counts.start made.1 fresh setSize startTime frequency repetitions kind
  obtain ⟨k,counts⟩ := run_invariant run ⟨0,start⟩ (Session.Counts.step setSize startTime frequency repetitions late some)
  exact ⟨k,counts.delivers late some⟩

end

theorem two_gets_delivered : ∃ session : Session .get, session.returned.map (·.time) = [1,1] ∧
    session.profile.eventQueue.elements.map (·.time) = [6,6] ∧ ∃ k, @Session.Delivers plainHeap .get 1 5 2 k session := by
  obtain ⟨made,session,ok,kind,_,run,returned,pending⟩ := two_gets_run 0 (by decide)
  exact ⟨session,returned,pending,@interval_delivers plainHeap .get _ _ _ made ok 3 1 5 2 kind (by decide) (by decide)
    session run⟩

end Dhtperf
