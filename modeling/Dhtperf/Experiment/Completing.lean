import Dhtperf.DhtperfMaster.Calm
import Dhtperf.Experiment.Ending

/-! Where an experiment comes to rest. If nothing fails but controllers that give up, somebody can
always go on until the master has heard from every controller or has lost it. -/
namespace Dhtperf
open Library Relation DhtperfController DhtperfMaster

/-! ### A controller -/

namespace DhtperfController.Receiver
variable [heap : StdHeap]

theorem advance_enabled (order : ByteOrder) (accepts : Distributions) (draws : Draws) (p : MasterWorkloadProfile)
    (sent : List Message) (r : Receiver) (follows : Follows order p sent r) (three : sent.length = 3)
    (fits : ∀ m ∈ sent, (m.body order).length < 2^32) (waits : r.pc ≠ .started) (runs : ∀ fault, r.pc ≠ .exited fault) :
    ∃ next, r.advance order accepts draws (sent.flatMap (Message.bits order)) = some next := by
  have placed := follows.placed
  unfold Placed at placed
  unfold advance
  cases here : r.pc with
  | header stage =>
    rw [here] at placed
    obtain ⟨place,consumed⟩ := placed
    obtain ⟨rest,split⟩ := follows.known
    cases rest with
    | nil =>
      rw [List.append_nil] at split
      rw [split,three] at place
      cases stage <;> cases place
    | cons message rest =>
      have enough : r.consumed + headerSize ≤ (sent.flatMap (Message.bits order)).length := by
        rw [← split,List.flatMap_append,List.flatMap_cons,List.length_append,List.length_append,Message.bits,
          List.length_append,MessageHeader.write_length,consumed]
        omega
      exact ⟨_,if_pos enough⟩
  | body stage header =>
    rw [here] at placed
    obtain ⟨_,message,next,rfl,consumed⟩ := placed
    have size := Message.header_size order message (fits message (next.subset (by simp)))
    obtain ⟨rest,split⟩ := next
    have enough : r.consumed + (message.header order).bodySize.toNat ≤ (sent.flatMap (Message.bits order)).length := by
      rw [← split,List.flatMap_append,List.flatMap_append,List.flatMap_singleton,List.length_append,List.length_append,
        Message.bits,List.length_append,MessageHeader.write_length,consumed,size]
      omega
    dsimp only
    rw [if_pos enough]
    split <;> exact ⟨_,rfl⟩
  | started => exact absurd here waits
  | exited fault => exact absurd here (runs fault)

omit heap in
def exited (r : Receiver) : Bool :=
  match r.pc with
  | .exited _ => true
  | _ => false

omit heap in
theorem exited_iff (r : Receiver) : r.exited = true ↔ ∃ fault, r.pc = .exited fault := by
  unfold exited
  split
  next fault here => simp [here]
  next other => simp only [Bool.false_eq_true,false_iff]; exact not_exists.mpr other

end DhtperfController.Receiver

namespace Loop

def broken (s : Loop) : Bool :=
  match s.pc with
  | .ended .returned => false
  | .ended _ => true
  | _ => false

theorem broken_iff (s : Loop) : s.broken = true ↔ ∃ ending, s.pc = .ended ending ∧ ending ≠ .returned := by
  unfold broken
  split
  next here => simp [here]
  next ending other here => simpa [here] using other
  next _ other =>
    simp only [Bool.false_eq_true,false_iff]
    rintro ⟨ending,here,_⟩
    exact other ending here

theorem processEvent_once (op : DhtOperation) (node : DhtNode) (attempt : Attempt) (success : attempt.success = true) :
    ∃ result, DhtNode.processEvent op node [attempt] = some result := by
  cases op <;> cases connected : node.connected <;>
    simp [DhtNode.processEvent,DhtNode.processJoinEvent,DhtNode.processLeaveEvent,DhtNode.processPutEvent,
      DhtNode.processGetEvent,DhtNode.joinLoop,connected,success]

variable [heap : StdHeap]

theorem act_enabled (s : Loop) (time duration : Int → Prop) (pushed lasted : Int) (fine : time pushed)
    (short : duration lasted) (running : ∀ ending, s.pc ≠ .ended ending) :
    ∃ action after, action.Within time duration ∧ s.Unhurried action ∧ s.act action = some after := by
  cases pc : s.pc with
  | ended ending => exact absurd pc (running ending)
  | head => exact ⟨.pass s.clock,s.pass s.clock,trivial,trivial,by simp only [act,pc,Nat.le_refl,if_true]⟩
  | sleeping toWait =>
    refine ⟨.wake s.rests,{s with pc := .head, clock := s.rests},trivial,Nat.le_refl _,?_⟩
    have later : s.clock ≤ s.rests := by
      rw [rests,pc]
      exact Nat.le_add_right _ _
    simp only [act,pc,if_pos later]
  | batch poppedAt pending =>
    rcases batch_first pending with empty | ⟨op,event,rest,next,first⟩
    · exact ⟨.batchDone,s.afterEvents,trivial,trivial,by simp only [act,pc,if_pos ((busy_none pending).mpr empty)]⟩
    · obtain ⟨result,returned⟩ := processEvent_once op s.dhtNode ⟨true,0,lasted,pushed⟩ rfl
      refine ⟨.event [⟨true,0,lasted,pushed⟩] s.clock,_,fun attempt member => ?_,trivial,
        (act_event s _ _ _).mpr ⟨poppedAt,pending,op,event,rest,result,pc,first,next,returned,Nat.le_refl _,rfl⟩⟩
      rw [List.mem_singleton.mp member]
      exact ⟨fine,by simpa using short⟩

end Loop

namespace Experiment

section
variable [heap : StdHeap] (writes : WriteModel) (order : ByteOrder) (text : PosixTime) (accepts : Distributions)
  (draws : Nat → Draws)
  (time duration : Int → Prop)

/-- A controller that has exited: in front of its loop, in it, or before the end of its reports. -/
def GivenUp (s : Experiment) (i : Nat) : Prop :=
  (∃ r ∈ s.system.receivers[i]?, r.exited = true) ∨
    ∃ loop ∈ s.loops i, loop.broken = true ∨
      loop.returned = true ∧ script order (s.results text i) ≠ messages (s.results text i)

omit heap in
instance (s : Experiment) (i : Nat) : Decidable (s.GivenUp order text i) := by
  unfold GivenUp
  infer_instance

/-- A controller that has exited before `start`. -/
def Exited (s : Experiment) (i : Nat) : Prop := ∃ r ∈ s.system.receivers[i]?, r.exited = true

omit heap in
instance (s : Experiment) (i : Nat) : Decidable (s.Exited i) := by
  unfold Exited
  infer_instance

omit heap in
/-- Nothing fails but controllers, and what they take with them. One that has started has
read everything that was sent to it: when it is gone, reads fail and its address is still
known. One that exits before may leave something unread. Its connection is then reset, and
a lookup of its address or a write to it fails as well. -/
def Calm (s : Experiment) : Action → Prop
  | .master (.accept descriptor address luck) =>
    DhtperfMaster.Calm order s.system.master (.accept descriptor address (reached luck)) ∧
      ∀ i ≤ s.system.master.controllers.length, luck.reachable i = false → s.Exited i
  | .master (.readError i reachable) => s.GivenUp order text i ∧ (reachable = false → s.Exited i)
  | .master (.writeError i) => s.Exited i
  | .master action => DhtperfMaster.Calm order s.system.master action
  | _ => True

omit heap in
instance (s : Experiment) (action : Action) : Decidable (s.Calm order text action) :=
  match action with
  | .master (.accept _ _ _) => inferInstanceAs (Decidable (_ ∧ _))
  | .master (.readError _ _) => inferInstanceAs (Decidable (_ ∧ _))
  | .master (.writeError i) => inferInstanceAs (Decidable (s.Exited i))
  | .master .acceptError => .isFalse id
  | .master (.receive i byte reachable) =>
    inferInstanceAs (Decidable (DhtperfMaster.Calm order s.system.master (.receive i byte reachable)))
  | .master (.transmit _ _ _ _) => .isTrue trivial
  | .master .timeout => .isFalse id
  | .controller _ => .isTrue trivial
  | .start _ => .isTrue trivial
  | .run _ _ => .isTrue trivial

abbrev CalmStep : Experiment → Experiment → Prop :=
  Library.StepIf (act writes order text accepts draws) fun s action =>
    (Permitted order text time duration s action ∧ s.Unhurried action) ∧ s.Calm order text action

omit heap in
/-- Only reads fail, and only from controllers that have given up. -/
def Orderly (s : Experiment) : Action → Prop
  | .master action => DhtperfMaster.Calm order s.system.master action ∧ ∀ i ∈ action.lost, s.GivenUp order text i
  | _ => True

abbrev Smooth : Experiment → Experiment → Prop :=
  Library.StepIf (act writes order text accepts draws) fun s action =>
    (Permitted order text time duration s action ∧ s.Unhurried action) ∧ s.Orderly order text action

theorem smooth_step (before after : Experiment)
    (smooth : Smooth .intact order text accepts draws time duration before after) :
    Step .intact order text accepts draws time duration before after := by
  obtain ⟨action,⟨⟨permitted,_⟩,_⟩,acted⟩ := smooth
  exact ⟨action,permitted,acted⟩

theorem smooth_run (first s : Experiment)
    (run : ReflTransGen (Smooth .intact order text accepts draws time duration) first s) :
    ReflTransGen (Step .intact order text accepts draws time duration) first s :=
  run.lift id (smooth_step order text accepts draws time duration)

theorem smooth_master (told : Nat → Results) (before after : Experiment) (foreseen : Foreseen text told before)
    (smooth : Smooth .intact order text accepts draws time duration before after) :
    ReflTransGen (DhtperfMaster.StepIf ⟨order,text,.intact⟩ fun m action =>
      Spoken order told m action ∧ DhtperfMaster.Calm order m action) before.system.master after.system.master := by
  obtain ⟨action,⟨⟨permitted,_⟩,calm⟩,acted⟩ := smooth
  cases act_moves .intact order text accepts draws before after action acted with
  | master action master made =>
    refine .single ⟨action,⟨?_,calm.1⟩,made⟩
    cases action with
    | receive i byte reachable =>
      obtain ⟨spoken,loop,here,halted⟩ := permitted
      have same : before.results text i = told i := by
        rw [results_own text before i loop here]
        exact (foreseen i loop here halted).symm
      intro c connected
      have next := spoken c connected
      unfold stream at next ⊢
      rwa [← same]
    | _ => trivial
  | _ => exact .refl

/-! ### Giving up is final -/

theorem receiver_kept (before after : Experiment) (i : Nat) (r : Receiver)
    (place : before.system.receivers[i]? = some r) (exited : r.exited = true)
    (step : Step .intact order text accepts draws time duration before after) :
    after.system.receivers[i]? = some r := by
  obtain ⟨fault,here⟩ := r.exited_iff.mp exited
  obtain ⟨action,_,acted⟩ := step
  cases act_moves .intact order text accepts draws before after action acted with
  | master action master made =>
    exact (List.getElem?_append_left (List.getElem?_eq_some_iff.mp place).1).trans place
  | controller k c other next connected found advanced =>
    have different : k ≠ i := by
      rintro rfl
      cases place.symm.trans found
      rw [Receiver.advance,here] at advanced
      cases advanced
    exact (List.getElem?_set_ne different).trans place
  | start => exact place
  | run => exact place

theorem step_givenUp (before after : Experiment) (i : Nat) (gaveUp : before.GivenUp order text i)
    (step : Step .intact order text accepts draws time duration before after) : after.GivenUp order text i := by
  rcases gaveUp with ⟨r,place,exited⟩ | ⟨loop,here,broken | ⟨halted,cut⟩⟩
  · exact .inl ⟨r,receiver_kept order text accepts draws time duration before after i r place exited step,exited⟩
  · obtain ⟨ending,ended,_⟩ := loop.broken_iff.mp broken
    exact .inr ⟨loop,step_ended order text accepts draws time duration before after i loop here ending ended step,
      .inl broken⟩
  · have kept := step_ended order text accepts draws time duration before after i loop here .returned
      ((Loop.returned_iff loop).mp halted) step
    rw [results_own text before i loop here,← results_own text after i loop kept] at cut
    exact .inr ⟨loop,kept,.inr ⟨halted,cut⟩⟩

theorem smooth_failed (before after : Experiment)
    (known : ∀ i ∈ before.system.master.failedLog, before.GivenUp order text i)
    (smooth : Smooth .intact order text accepts draws time duration before after) :
    ∀ i ∈ after.system.master.failedLog, after.GivenUp order text i := by
  have step := smooth_step order text accepts draws time duration before after smooth
  have kept (i : Nat) (member : i ∈ before.system.master.failedLog) : after.GivenUp order text i :=
    step_givenUp order text accepts draws time duration before after i (known i member) step
  obtain ⟨action,⟨_,calm⟩,acted⟩ := smooth
  cases act_moves .intact order text accepts draws before after action acted with
  | master action master made =>
    intro i member
    rcases act_failed _ _ _ action made i member with old | rfl
    · exact kept i old
    · exact step_givenUp order text accepts draws time duration before _ i (calm.2 i rfl) step
  | _ => exact kept

/-! ### Resets -/

omit heap in
theorem orderly_calm (s : Experiment) (action : Action) (orderly : s.Orderly order text action) :
    s.Calm order text action := by
  cases action with
  | master action =>
    obtain ⟨calm,lost⟩ := orderly
    cases action with
    | accept descriptor address luck =>
      exact ⟨⟨fun _ _ => rfl,calm.2⟩,fun i bound unknown => by cases unknown.symm.trans (calm.1 i bound)⟩
    | readError i reachable => exact ⟨lost i rfl,fun unknown => by cases unknown.symm.trans calm⟩
    | writeError i => exact calm.elim
    | _ => exact calm
  | _ => trivial

/-- The master has been ended by a connection of a controller that exited before `start`. -/
def Reset (s : Experiment) : Prop :=
  (∃ i, s.Exited i) ∧ (s.system.master.pc = .aborted .lookup ∨ s.system.master.pc = .aborted .write)

theorem calm_step (before after : Experiment)
    (calm : CalmStep .intact order text accepts draws time duration before after) :
    Step .intact order text accepts draws time duration before after := by
  obtain ⟨action,⟨⟨permitted,_⟩,_⟩,acted⟩ := calm
  exact ⟨action,permitted,acted⟩

theorem step_reset (before after : Experiment) (reset : before.Reset)
    (step : Step .intact order text accepts draws time duration before after) : after.Reset := by
  obtain ⟨⟨i,r,place,exited⟩,aborted⟩ := reset
  refine ⟨⟨i,r,receiver_kept order text accepts draws time duration before after i r place exited step,exited⟩,?_⟩
  obtain ⟨action,_,acted⟩ := step
  cases act_moves .intact order text accepts draws before after action acted with
  | master action master made =>
    have serving := (DhtperfMaster.act_moves _ _ _ _ made).1
    rcases aborted with lookup | write
    · cases serving.symm.trans lookup
    · cases serving.symm.trans write
  | _ => exact aborted

/-- A calm step is smooth or ends the master. -/
theorem calm_smooth (before after : Experiment)
    (calm : CalmStep .intact order text accepts draws time duration before after) :
    after.Reset ∨ Smooth .intact order text accepts draws time duration before after := by
  have step := calm_step order text accepts draws time duration before after calm
  obtain ⟨action,⟨⟨permitted,unhurried⟩,calm⟩,acted⟩ := calm
  have kept (i : Nat) (exited : before.Exited i) : after.Exited i := by
    obtain ⟨r,place,gone⟩ := exited
    exact ⟨r,receiver_kept order text accepts draws time duration before after i r place gone step,gone⟩
  have moved := act_moves .intact order text accepts draws before after action acted
  cases moved with
  | master action master made =>
    cases action with
    | accept descriptor address luck =>
      rcases handleAccept_lookups ⟨order,text,.intact⟩ before.system.master descriptor address luck
        with same | ⟨⟨i,bound,unknown⟩,failed⟩
      · refine .inr ⟨.master (.accept descriptor address (reached luck)),⟨⟨trivial,trivial⟩,calm.1,fun j lost => absurd lost (Option.not_mem_none j)⟩,?_⟩
        rw [← acted]
        simp only [act,System.act,DhtperfMaster.act,same]
      · refine .inl ⟨⟨i,kept i (calm.2 i bound unknown)⟩,.inl ?_⟩
        simp only [DhtperfMaster.act,failed,ending] at made
        split at made
        next => cases made
        next =>
          split at made
          next => cases made; rfl
          next => cases made
    | readError i reachable =>
      cases known : reachable with
      | true =>
        subst known
        exact .inr ⟨.master (.readError i true),⟨⟨trivial,trivial⟩,rfl,fun j same => Option.some.inj same ▸ calm.1⟩,acted⟩
      | false =>
        subst known
        refine .inl ⟨⟨i,kept i (calm.2 rfl)⟩,.inl ?_⟩
        obtain ⟨_,moved⟩ := DhtperfMaster.act_moves _ _ _ _ made
        cases moved with
        | aborted _ abort fails => rw [fails.2]
    | writeError i =>
      refine .inl ⟨⟨i,kept i calm⟩,.inr ?_⟩
      obtain ⟨_,moved⟩ := DhtperfMaster.act_moves _ _ _ _ made
      cases moved with
      | aborted _ abort fails => rw [show abort = .write from fails]
    | acceptError => exact calm.elim
    | receive i byte reachable =>
      exact .inr ⟨.master (.receive i byte reachable),⟨⟨permitted,trivial⟩,calm,fun j lost => absurd lost (Option.not_mem_none j)⟩,acted⟩
    | transmit i index count beyond =>
      exact .inr ⟨.master (.transmit i index count beyond),⟨⟨trivial,trivial⟩,trivial,fun j lost => absurd lost (Option.not_mem_none j)⟩,acted⟩
    | timeout => exact calm.elim
  | controller i => exact .inr ⟨.controller i,⟨⟨permitted,unhurried⟩,trivial⟩,acted⟩
  | start i => exact .inr ⟨.start i,⟨⟨permitted,unhurried⟩,trivial⟩,acted⟩
  | run i action => exact .inr ⟨.run i action,⟨⟨permitted,unhurried⟩,trivial⟩,acted⟩

theorem calm_run (first s : Experiment)
    (run : ReflTransGen (CalmStep .intact order text accepts draws time duration) first s) :
    s.Reset ∨ ReflTransGen (Smooth .intact order text accepts draws time duration) first s := by
  induction run with
  | refl => exact .inr .refl
  | tail _ calm ih =>
    rcases ih with reset | smooth
    · exact .inl (step_reset order text accepts draws time duration _ _ reset
        (calm_step order text accepts draws time duration _ _ calm))
    · exact (calm_smooth order text accepts draws time duration _ _ calm).imp id smooth.tail

/-! ### At rest -/

def nodes (s : Experiment) (i : Nat) : DhtNode := ((s.loops i).map Loop.dhtNode).getD .make

section
variable (file dhtType : Bytes) (given : UInt32) (workload : MasterWorkload)
  (loaded : MasterWorkload.loadConfig file given = .ok (some workload)) (lowLatency : Bool) (acceptor : Descriptor)
  (s : Experiment)
  (run : ReflTransGen (Smooth .intact order text accepts draws time duration)
    (make workload dhtType lowLatency acceptor) s)
include run

theorem smooth_undisturbed (loaded : MasterWorkload.loadConfig file given = .ok (some workload))
    (inverse : text.Inverse time duration) :
    Undisturbed ⟨order,text,.intact⟩ s.nodes workload (.make dhtType lowLatency) s.system.master := by
  have steps := smooth_run order text accepts draws time duration _ s run
  have measured (i : Nat) : (s.nodes i).Measured time duration := by
    unfold nodes
    cases here : s.loops i with
    | none => exact (DhtNode.make_recorded time duration).measured
    | some loop =>
      exact (loop_books order text accepts draws time duration dhtType workload lowLatency acceptor s steps i loop
        here).2.measured
  refine run_undisturbed ⟨order,text,.intact⟩ s.nodes time duration inverse measured file dhtType given workload loaded
    lowLatency acceptor s.system.master ?_
  refine @run_foreseen Experiment DhtperfMaster _ _ (fun _ => True) (Foreseen text (s.results text))
    (fun s => s.system.master) _ s run trivial (fun _ _ _ _ => trivial) (fun before after smooth => ?_)
    (fun before after _ foreseen smooth => ?_) (results_foreseen text s)
  · exact step_foreseen order text accepts draws time duration _ before after
      (smooth_step order text accepts draws time duration before after smooth)
  · exact smooth_master order text accepts draws time duration _ before after foreseen smooth

variable (quiet : ∀ after, ¬Smooth .intact order text accepts draws time duration s after)

omit run in
include quiet in
theorem quiet_master (action : Dhtperf.Action) (after : DhtperfMaster)
    (permitted : Permitted order text time duration s (.master action)) (calm : s.Orderly order text (.master action))
    (acted : DhtperfMaster.act ⟨order,text,.intact⟩ s.system.master action = some after) : False := by
  have moved : (s.act .intact order text accepts draws (.master action)).isSome := by
    simp only [act,System.act,acted,Option.map_some,Option.isSome_some]
  obtain ⟨next,moved⟩ := Option.isSome_iff_exists.mp moved
  exact quiet next ⟨.master action,⟨⟨permitted,trivial⟩,calm⟩,moved⟩

include loaded quiet

theorem quiet_started (serving : s.system.master.pc = .serving) (sent : s.system.master.startMessagesSent = true)
    (undisturbed : Undisturbed ⟨order,text,.intact⟩ s.nodes workload (.make dhtType lowLatency) s.system.master)
    (i : Nat) (bound : i < s.system.master.controllers.length) (alive : ¬s.GivenUp order text i) :
    ∃ r, s.system.receivers[i]? = some r ∧ r.pc = .started := by
  have agreed := told_agreed order text accepts draws time duration file dhtType given workload loaded lowLatency
    acceptor s (smooth_run order text accepts draws time duration _ s run) (s.results text) (results_foreseen text s)
  obtain ⟨c,here⟩ : ∃ c, s.system.master.controllers[i]? = some c := ⟨_,List.getElem?_eq_getElem bound⟩
  obtain ⟨r,place⟩ : ∃ r, s.system.receivers[i]? = some r := ⟨_,List.getElem?_eq_getElem (agreed.paired ▸ bound)⟩
  by_cases started : r.pc = .started
  · exact ⟨r,place,started⟩
  have runs (fault : ReceiverFault) : r.pc ≠ .exited fault :=
    fun exited => alive (.inl ⟨r,place,r.exited_iff.mpr ⟨fault,exited⟩⟩)
  have written : c.writes = [] := by
    by_contra pending
    obtain ⟨d,moved⟩ := transmit_enabled c (undisturbed.begun i c here) pending
    refine quiet_master order text accepts draws time duration s quiet (.transmit i 0 1 []) (s.system.master.update i d)
      trivial ⟨trivial,fun _ none => by cases none⟩ ?_
    rw [DhtperfMaster.act,if_neg (not_not.mpr serving)]
    simp only [here,moved,Option.map_some]
  obtain ⟨inOrder,p,_,shape⟩ := agreed.courteous.opened i c here
  rw [if_pos sent] at shape
  obtain ⟨addresses,shape⟩ := shape
  obtain ⟨q,_,follows⟩ := agreed.follows i c r here place
  have arrived : c.received = c.sent.flatMap (Message.bits order) := by
    have split := inOrder.split
    unfold ControllerConnection.untransmitted at split
    rwa [written,List.flatMap_nil,List.append_nil] at split
  obtain ⟨next,advanced⟩ := r.advance_enabled order accepts (draws i) q c.sent follows (by rw [shape]; rfl)
    inOrder.fits started runs
  refine absurd ⟨.controller i,⟨⟨trivial,trivial⟩,trivial⟩,?_⟩
    (quiet {s with system := {s.system with receivers := s.system.receivers.set i next}})
  simp only [act,System.act,here,place,arrived,advanced,Option.map_some]

omit loaded in
theorem quiet_returned (pushed lasted : Int) (fine : time pushed) (short : duration lasted) (i : Nat) (r : Receiver)
    (place : s.system.receivers[i]? = some r) (started : r.pc = .started) (alive : ¬s.GivenUp order text i) :
    ∃ loop, s.loops i = some loop ∧ loop.pc = .ended .returned := by
  have linked := run_linked order text accepts draws time duration dhtType workload lowLatency acceptor s
    (smooth_run order text accepts draws time duration _ s run)
  cases here : s.loops i with
  | none =>
    obtain ⟨first,entered⟩ := (linked.ready i r place).enters accepts (draws i) r started
    refine absurd ⟨.start i,⟨⟨trivial,trivial⟩,trivial⟩,?_⟩
      (quiet {s with loops := Function.update s.loops i (some first)})
    simp only [act,place,here,started,entered,if_true]
  | some loop =>
    by_cases ended : ∃ ending, loop.pc = .ended ending
    · obtain ⟨ending,ended⟩ := ended
      by_cases whole : ending = .returned
      · exact ⟨loop,rfl,whole ▸ ended⟩
      · exact absurd (.inr ⟨loop,here,.inl (loop.broken_iff.mpr ⟨ending,ended,whole⟩)⟩) alive
    · obtain ⟨action,next,within,unhurried,moved⟩ :=
        loop.act_enabled time duration pushed lasted fine short (not_exists.mp ended)
      refine absurd ⟨.run i action,⟨⟨within,fun other same => ?_⟩,trivial⟩,?_⟩
        (quiet {s with loops := Function.update s.loops i (some next)})
      · cases here.symm.trans same
        exact unhurried
      · simp only [act,here,moved,Option.map_some]

omit run loaded in
theorem quiet_finished (serving : s.system.master.pc = .serving) (sent : s.system.master.startMessagesSent = true)
    (undisturbed : Undisturbed ⟨order,text,.intact⟩ s.nodes workload (.make dhtType lowLatency) s.system.master)
    (i : Nat) (bound : i < s.system.master.controllers.length) (loop : Loop) (here : s.loops i = some loop)
    (ended : loop.pc = .ended .returned) (alive : ¬s.GivenUp order text i) : i ∈ s.system.master.finishedLog := by
  by_contra absent
  have halted := (Loop.returned_iff loop).mpr ended
  have cut : script order (s.results text i) = messages (s.results text i) := by
    by_contra cut
    exact alive (.inr ⟨loop,here,.inr ⟨halted,cut⟩⟩)
  obtain ⟨c,connected⟩ : ∃ c, s.system.master.controllers[i]? = some c := ⟨_,List.getElem?_eq_getElem bound⟩
  have more := undisturbed.unheard i cut c connected absent
  have single := undisturbed.healthy.telling.counts.each i c connected
  rw [List.count_eq_zero_of_not_mem absent,if_pos sent] at single
  obtain ⟨after,acted⟩ := receive_enabled ⟨order,text,.intact⟩ s.system.master serving i c connected
    (List.ne_nil_of_length_pos (by omega)) (stream order (s.results text) i)[c.taken.length]
  refine quiet_master order text accepts draws time duration s quiet (.receive i _ true) after ?_
    ⟨rfl,fun _ none => by cases none⟩ acted
  refine ⟨fun other same => ?_,loop,here,halted⟩
  cases connected.symm.trans same
  exact List.getElem?_eq_getElem more

omit run loaded in
theorem quiet_lost (serving : s.system.master.pc = .serving) (sent : s.system.master.startMessagesSent = true)
    (undisturbed : Undisturbed ⟨order,text,.intact⟩ s.nodes workload (.make dhtType lowLatency) s.system.master)
    (i : Nat) (bound : i < s.system.master.controllers.length) (gaveUp : s.GivenUp order text i) :
    i ∈ s.system.master.finishedLog := by
  by_contra absent
  obtain ⟨c,connected⟩ : ∃ c, s.system.master.controllers[i]? = some c := ⟨_,List.getElem?_eq_getElem bound⟩
  have single := undisturbed.healthy.telling.counts.each i c connected
  rw [List.count_eq_zero_of_not_mem absent,if_pos sent] at single
  obtain ⟨after,acted⟩ := readError_enabled ⟨order,text,.intact⟩ s.system.master serving i c connected
    (List.ne_nil_of_length_pos (by omega))
  exact quiet_master order text accepts draws time duration s quiet (.readError i true) after trivial
    ⟨rfl,fun _ same => Option.some.inj same ▸ gaveUp⟩ acted

theorem quiet_stopped (pushed lasted : Int) (fine : time pushed) (short : duration lasted)
    (descriptors : workload.nodes.toNat < 2^31) (type : Sendable order (.dhtType dhtType))
    (profiles : ∀ p ∈ workload.profiles, Sendable order (profileMessage p))
    (undisturbed : Undisturbed ⟨order,text,.intact⟩ s.nodes workload (.make dhtType lowLatency) s.system.master) :
    s.system.master.pc = .stopped .controllerFinished := by
  refine undisturbed.going.resolve_left fun serving => ?_
  have same := undisturbed.healthy.same
  have agreed := told_agreed order text accepts draws time duration file dhtType given workload loaded lowLatency
    acceptor s (smooth_run order text accepts draws time duration _ s run) (s.results text) (results_foreseen text s)
  have counts := agreed.courteous.telling.counts
  cases sent : s.system.master.startMessagesSent with
  | false =>
    obtain ⟨descriptor,address,luck,after,calm,acted⟩ := accept_enabled ⟨order,text,.intact⟩ s.system.master counts
      serving sent (same ▸ descriptors) (agreed.courteous.type_eq ▸ type) (same ▸ profiles)
    exact quiet_master order text accepts draws time duration s quiet (.accept descriptor address luck) after trivial
      ⟨calm,fun _ none => by cases none⟩ acted
  | true =>
    obtain ⟨i,bound,absent⟩ := unfinished s.system.master counts serving sent
    by_cases gaveUp : s.GivenUp order text i
    · exact absent (quiet_lost order text accepts draws time duration dhtType workload lowLatency s quiet serving sent
        undisturbed i bound gaveUp)
    · obtain ⟨r,place,started⟩ := quiet_started order text accepts draws time duration file dhtType given workload
        loaded lowLatency acceptor s run quiet serving sent undisturbed i bound gaveUp
      obtain ⟨loop,here,ended⟩ := quiet_returned order text accepts draws time duration dhtType workload lowLatency
        acceptor s run quiet pushed lasted fine short i r place started gaveUp
      exact absent (quiet_finished order text accepts draws time duration dhtType workload lowLatency s quiet serving
        sent undisturbed i bound loop here ended gaveUp)

omit quiet in
theorem finished_whole (i : Nat) (member : i ∈ s.system.master.finishedLog) (fine : i ∉ s.system.master.failedLog) :
    ¬s.GivenUp order text i := by
  have steps := smooth_run order text accepts draws time duration _ s run
  have agreed := told_agreed order text accepts draws time duration file dhtType given workload loaded lowLatency
    acceptor s steps (s.results text) (results_foreseen text s)
  obtain ⟨loop,entered,ended,_⟩ := finished_final order text accepts draws time duration file dhtType given workload
    loaded lowLatency acceptor s steps i member fine
  rintro (⟨r,place,exited⟩ | ⟨other,here,failed⟩)
  · obtain ⟨fault,here⟩ := r.exited_iff.mp exited
    obtain ⟨receiver,_,same,started,_⟩ := (run_linked order text accepts draws time duration dhtType workload lowLatency
      acceptor s steps).begun i loop entered
    cases place.symm.trans same
    cases here.symm.trans started
  · cases here.symm.trans entered
    rcases failed with broken | ⟨_,cut⟩
    · obtain ⟨ending,early,different⟩ := loop.broken_iff.mp broken
      cases ended.symm.trans early
      exact different rfl
    · obtain ⟨heard,known⟩ :=
        agreed.courteous.telling.each i _ (List.getElem?_eq_getElem (agreed.courteous.telling.counts.members i member))
      have all := known.known
      rw [known.done member fine] at all
      exact cut ((script_messages order (s.results text i)).eq_of_length_le all.length_le)

/-- As long as no connection is reset, somebody can go on until the master has stopped. -/
theorem smooth_completes (inverse : text.Inverse time duration) (pushed lasted : Int) (fine : time pushed)
    (short : duration lasted) (descriptors : workload.nodes.toNat < 2^31) (type : Sendable order (.dhtType dhtType))
    (profiles : ∀ p ∈ workload.profiles, Sendable order (profileMessage p)) :
    s.system.master.pc = .stopped .controllerFinished ∧
      (∀ i, i ∈ s.system.master.failedLog ↔ s.GivenUp order text i) ∧
      (∀ i < workload.nodes.toNat, ¬s.GivenUp order text i → ∃ loop ∈ s.loops i, loop.pc = .ended .returned ∧
        s.system.master.reportsFrom i = reportResults (loop.dhtNode.getResults text)) ∧
      s.system.master.nodesStatus = ⟨((workload.nodes.toNat - s.system.master.failedLog.length : Nat) : Int),
        s.system.master.failedLog.length,0⟩ := by
  have steps := smooth_run order text accepts draws time duration _ s run
  have agreed := told_agreed order text accepts draws time duration file dhtType given workload loaded lowLatency
    acceptor s steps (s.results text) (results_foreseen text s)
  have counts := agreed.courteous.telling.counts
  have undisturbed := smooth_undisturbed order text accepts draws time duration file dhtType given workload lowLatency
    acceptor s run loaded inverse
  have stopped := quiet_stopped order text accepts draws time duration file dhtType given workload loaded lowLatency
    acceptor s run quiet pushed lasted fine short descriptors type profiles undisturbed
  have lost : ∀ i ∈ s.system.master.failedLog, s.GivenUp order text i :=
    run_invariant run (fun i none => by cases none) (smooth_failed order text accepts draws time duration)
  have full := counts.stop.mp stopped
  rw [agreed.courteous.workload_eq] at full
  have started : s.system.master.startMessagesSent = true := by
    by_contra waiting
    have size := counts.size
    rw [if_neg waiting,agreed.courteous.workload_eq,← full] at size
    have most := counts.finished_le
    omega
  have size : s.system.master.controllers.length = workload.nodes.toNat := by
    have size := counts.size
    rw [if_pos started,agreed.courteous.workload_eq] at size
    exact size.1
  have done (i : Nat) (bound : i < workload.nodes.toNat) : i ∈ s.system.master.finishedLog :=
    counts.all_counted stopped i (size ▸ bound)
  refine ⟨stopped,fun i => ⟨lost i,fun gaveUp => ?_⟩,fun i bound alive => ?_,?_⟩
  · have bound : i < workload.nodes.toNat := by
      refine node_bound order text accepts draws time duration file dhtType given workload loaded lowLatency acceptor s
        steps i ?_
      rcases gaveUp with ⟨r,place,_⟩ | ⟨loop,here,_⟩
      · exact (List.getElem?_eq_some_iff.mp place).1
      · exact loop_place order text accepts draws time duration dhtType workload lowLatency acceptor s steps i loop here
    by_contra fine
    exact finished_whole order text accepts draws time duration file dhtType given workload loaded lowLatency acceptor s
      run i (done i bound) fine gaveUp
  · exact finished_final order text accepts draws time duration file dhtType given workload loaded lowLatency acceptor s
      steps i (done i bound) fun failed => alive (lost i failed)
  · rw [nodesStatus_counts s.system.master counts started,counts.finished,counts.failed,full,
      agreed.courteous.workload_eq,Nat.sub_self]
    rfl

end

/-- If nothing fails but controllers that give up, somebody can go on until the master has
stopped because everyone is counted as finished, unless a controller that exits before
`start` ends the master. When the master has stopped, the failed ones are exactly those that
have given up, all others have been heard in full, and the last line of the results says how
many there are of each. -/
theorem experiment_completes (file dhtType : Bytes) (given : UInt32) (workload : MasterWorkload)
    (loaded : MasterWorkload.loadConfig file given = .ok (some workload)) (lowLatency : Bool) (acceptor : Descriptor)
    (s : Experiment)
    (run : ReflTransGen (CalmStep .intact order text accepts draws time duration)
      (make workload dhtType lowLatency acceptor) s)
    (quiet : ∀ after, ¬CalmStep .intact order text accepts draws time duration s after)
    (inverse : text.Inverse time duration)
    (pushed lasted : Int) (fine : time pushed) (short : duration lasted) (descriptors : workload.nodes.toNat < 2^31)
    (type : Sendable order (.dhtType dhtType))
    (profiles : ∀ p ∈ workload.profiles, Sendable order (profileMessage p)) :
    s.Reset ∨
      s.system.master.pc = .stopped .controllerFinished ∧
      (∀ i, i ∈ s.system.master.failedLog ↔ s.GivenUp order text i) ∧
      (∀ i < workload.nodes.toNat, ¬s.GivenUp order text i → ∃ loop ∈ s.loops i, loop.pc = .ended .returned ∧
        s.system.master.reportsFrom i = reportResults (loop.dhtNode.getResults text)) ∧
      s.system.master.nodesStatus = ⟨((workload.nodes.toNat - s.system.master.failedLog.length : Nat) : Int),
        s.system.master.failedLog.length,0⟩ := by
  refine (calm_run order text accepts draws time duration _ s run).imp id fun smooth => ?_
  refine smooth_completes order text accepts draws time duration file dhtType given workload loaded lowLatency acceptor s
    smooth (fun after step => ?_) inverse pushed lasted fine short descriptors type profiles
  obtain ⟨action,⟨allowed,orderly⟩,acted⟩ := step
  exact quiet after ⟨action,⟨allowed,orderly_calm order text s action orderly⟩,acted⟩

/-! ### Runs of one node -/

theorem over_quiet (s : Experiment) (linked : Linked accepts draws time duration s)
    (stopped : s.system.master.pc ≠ .serving) (done : ∀ (i : Nat) (r : Receiver), s.system.receivers[i]? = some r →
      r.exited = true ∨ r.pc = .started ∧ ∃ loop ∈ s.loops i, loop.returned = true ∨ loop.broken = true) :
    ∀ after, ¬CalmStep .intact order text accepts draws time duration s after := by
  have halted (loop : Loop) (gone : loop.returned = true ∨ loop.broken = true) : ∃ ending, loop.pc = .ended ending := by
    rcases gone with returned | broken
    · exact ⟨_,(Loop.returned_iff loop).mp returned⟩
    · obtain ⟨ending,ended,_⟩ := loop.broken_iff.mp broken
      exact ⟨ending,ended⟩
  rintro after ⟨action,_,acted⟩
  cases act_moves .intact order text accepts draws s after action acted with
  | master action master made => exact stopped (DhtperfMaster.act_moves _ _ _ _ made).1
  | controller i c r next connected place advanced =>
    rcases done i r place with exited | ⟨started,_⟩
    · obtain ⟨fault,here⟩ := r.exited_iff.mp exited
      rw [Receiver.advance,here] at advanced
      cases advanced
    · rw [Receiver.advance_started accepts (draws i) order c.received r started] at advanced
      cases advanced
  | start i r first place absent started entered =>
    rcases done i r place with exited | ⟨_,loop,here,_⟩
    · obtain ⟨fault,here⟩ := r.exited_iff.mp exited
      cases here.symm.trans started
    · cases here.symm.trans absent
  | run i action loop next here moved =>
    obtain ⟨r,_,place,started,_⟩ := linked.begun i loop here
    rcases done i r place with exited | ⟨_,other,same,gone⟩
    · obtain ⟨fault,here⟩ := r.exited_iff.mp exited
      cases here.symm.trans started
    · cases here.symm.trans same
      obtain ⟨ending,ended⟩ := halted loop gone
      rw [Loop.act_ended loop action ending ended] at moved
      cases moved

end

def Gone (s : Experiment) : Prop :=
  s.system.master.pc ≠ .serving ∧ s.system.receivers.length = 1 ∧ ∀ r ∈ s.system.receivers,
    r.exited = true ∨ r.pc = .started ∧ ∃ loop ∈ s.loops 0, loop.returned = true ∨ loop.broken = true

instance (s : Experiment) : Decidable s.Gone := inferInstanceAs (Decidable (_ ∧ _))

abbrev VisitCalm : Experiment → Experiment → Prop :=
  @CalmStep plainHeap .intact .little NodeLatency.oneDay ⟨fun _ => true,fun _ _ => true⟩ (fun _ _ => 0) (· ∈ [5,7])
    (· ∈ [100,2000000])

theorem gone_quiet (workload : MasterWorkload) (dhtType : Bytes) (actions : List Action) (good : Experiment → Bool)
    (performed : (perform
      (@act plainHeap .intact .little NodeLatency.oneDay ⟨fun _ => true,fun _ _ => true⟩ fun _ _ => 0)
      (fun s action => (Permitted .little NodeLatency.oneDay (· ∈ [5,7]) (· ∈ [100,2000000]) s action ∧
        s.Unhurried action) ∧ s.Calm .little NodeLatency.oneDay action) (make workload dhtType true 3) actions).any
      (fun s => s.Gone && good s) = true) :
    ∃ s, ReflTransGen VisitCalm (make workload dhtType true 3) s ∧ (∀ after, ¬VisitCalm s after) ∧ good s = true := by
  let heap := plainHeap
  obtain ⟨s,run,shape⟩ := perform_run _ _ actions _ _ performed
  obtain ⟨gone,fine⟩ := Bool.and_eq_true_iff.mp shape
  obtain ⟨stopped,one,each⟩ := of_decide_eq_true gone
  have steps := run.lift id (calm_step _ _ _ _ _ _)
  have linked := run_linked _ _ _ _ _ _ dhtType workload true 3 s steps
  refine ⟨s,run,over_quiet _ _ _ _ _ _ s linked stopped fun i r place => ?_,fine⟩
  have first : i = 0 := by
    have bound := (List.getElem?_eq_some_iff.mp place).1
    omega
  exact first ▸ each r (List.mem_of_getElem? place)

theorem visited_calmly : ∃ s, ReflTransGen VisitCalm (make visitWorkload (ascii "dummy") true 3) s ∧
    (∀ after, ¬VisitCalm s after) ∧ decide (s.system.master.pc = .stopped .controllerFinished) = true :=
  gone_quiet visitWorkload (ascii "dummy") (visit 4) _ (by decide +kernel)

def twiceFile : Bytes :=
  ascii "nodes 1\nduration 3\nprofile p\njoin exact 1 1\nleave none\nput none\nget none\ndefault-profile p\n"

def twiceWorkload : MasterWorkload :=
  {visitWorkload with profiles := [⟨ascii "p",ascii "exact 1 1",ascii "none",ascii "none",ascii "none"⟩]}

/-- The second join of the batch ends the controller. -/
def twice (descriptor : Descriptor) : List Action :=
  [.master (.accept descriptor (ascii "host") smooth),.controller 0,.controller 0,.controller 0,.controller 0,
    .controller 0,.controller 0,.start 0,.run 0 (.pass 1),.run 0 (.event [⟨true,0,100,5⟩] 2),.run 0 (.event [] 2),
    .master (.readError 0 true)]

theorem joined_twice : ∃ s, ReflTransGen VisitCalm (make twiceWorkload (ascii "dummy") true 3) s ∧
    (∀ after, ¬VisitCalm s after) ∧
    decide (s.system.master.pc = .stopped .controllerFinished ∧ s.system.master.failedLog = [0]) = true :=
  gone_quiet twiceWorkload (ascii "dummy") (twice 4) _ (by decide +kernel)

/-- The controller does not know the type and leaves two messages unread. -/
def refusal (descriptor : Descriptor) : List Action :=
  [.master (.accept descriptor (ascii "host") smooth),.controller 0,.controller 0,.master (.readError 0 false)]

theorem refused : ∃ s, ReflTransGen VisitCalm (make visitWorkload (ascii "other") true 3) s ∧
    (∀ after, ¬VisitCalm s after) ∧ decide (s.system.master.pc = .aborted .lookup) = true :=
  gone_quiet visitWorkload (ascii "other") (refusal 4) _ (by decide +kernel)

/-- One node that joins and reports, one that gives up, and one that ends the master. -/
theorem visit_completes :
    (∃ s : Experiment, s.system.master.pc = .stopped .controllerFinished ∧
      ∀ i, i ∈ s.system.master.failedLog ↔ s.GivenUp .little NodeLatency.oneDay i) ∧
    (∃ s : Experiment, s.GivenUp .little NodeLatency.oneDay 0 ∧ s.system.master.nodesStatus = ⟨0,1,0⟩) ∧
    ∃ s : Experiment, s.Reset ∧ s.system.master.pc = .aborted .lookup := by
  obtain ⟨s,run,quiet,ended⟩ := visited_calmly
  obtain ⟨t,other,still,failed⟩ := joined_twice
  obtain ⟨u,last,silent,aborted⟩ := refused
  refine ⟨⟨s,?_⟩,⟨t,?_⟩,⟨u,?_⟩⟩
  · have ended := of_decide_eq_true ended
    rcases @experiment_completes plainHeap _ _ _ _ _ _ visitFile (ascii "dummy") 0 visitWorkload visit_loaded true 3 s run
      quiet NodeLatency.oneDay_inverse 5 100 (by decide) (by decide) (by decide) (by decide) (by decide)
      with ⟨_,lookup | write⟩ | ⟨stopped,lost,_⟩
    · cases ended.symm.trans lookup
    · cases ended.symm.trans write
    · exact ⟨stopped,lost⟩
  · obtain ⟨ended,failed⟩ := of_decide_eq_true failed
    rcases @experiment_completes plainHeap _ _ _ _ _ _ twiceFile (ascii "dummy") 0 twiceWorkload rfl true 3 t other still
      NodeLatency.oneDay_inverse 5 100 (by decide) (by decide) (by decide) (by decide) (by decide)
      with ⟨_,lookup | write⟩ | ⟨_,gaveUp,_,status⟩
    · cases ended.symm.trans lookup
    · cases ended.symm.trans write
    · rw [failed] at gaveUp status
      exact ⟨(gaveUp 0).mp (by simp),status⟩
  · have aborted := of_decide_eq_true aborted
    rcases @experiment_completes plainHeap _ _ _ _ _ _ visitFile (ascii "other") 0 visitWorkload visit_loaded true 3 u
      last silent NodeLatency.oneDay_inverse 5 100 (by decide) (by decide) (by decide) (by decide) (by decide)
      with reset | ⟨stopped,_⟩
    · exact ⟨reset,aborted⟩
    · cases aborted.symm.trans stopped

end Experiment
end Dhtperf
