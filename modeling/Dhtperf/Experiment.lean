import Dhtperf.DhtperfController.Accounts
import Dhtperf.System

/-! A whole experiment: the master, the controllers that wait for it, and in every
controller the main loop that it starts. What a controller reports is no longer given from
outside; it is what its own loop has measured by the time it returns. -/
namespace Dhtperf
open Library Relation DhtperfController DhtperfMaster

/-! ### From the three messages to the loop -/

namespace DhtperfController.Receiver

/-- The string that `setProfile` was given for an operation. -/
def text (r : Receiver) (op : DhtOperation) : Bytes := (r.handed.lookup op).getD []

variable [heap : StdHeap] (accepts : Distributions) (draws : Draws)

/-- The entry of `start`, with the profiles that `setProfile` has built from these draws. -/
def enter (r : Receiver) : Except Fault Loop :=
  Loop.start accepts (r.text .join) (r.text .leave) (r.text .put) (r.text .get) r.duration draws

structure Ready (r : Receiver) : Prop where
  fresh : ∀ stage, stage ≠ .start → r.pc = .header stage ∨ (∃ header, r.pc = .body stage header) → r.handed = []
  handed : r.pc = .header .start ∨ (∃ header, r.pc = .body .start header) ∨ r.pc = .started →
    ∃ join leave put get, r.handed = [(.join,join),(.leave,leave),(.put,put),(.get,get)] ∧
      (setProfiles accepts r.handed draws).2 = none
  duration : r.pc = .started → ∃ host entry self, .start r.duration host entry self ∈ r.got

theorem make_ready : Ready accepts draws .make where
  fresh := fun _ _ _ => rfl
  handed := by simp [make]
  duration := by simp [make]

theorem setProfiles_made (op : DhtOperation) (profile : Bytes) (rest : List (DhtOperation × Bytes))
    (fine : (setProfiles accepts ((op,profile) :: rest) draws).2 = none) :
    ∃ made after, Profile.makeProfile accepts op profile draws = .ok (made,after) ∧
      (setProfiles accepts rest after).2 = none := by
  unfold setProfiles at fine
  split at fine
  next => cases fine
  next made after ok => exact ⟨made,after,ok,fine⟩

theorem Ready.enters (r : Receiver) (ready : Ready accepts draws r) (started : r.pc = .started) :
    ∃ first, r.enter accepts draws = .ok first := by
  obtain ⟨join,leave,put,get,same,fine⟩ := ready.handed (Or.inr (Or.inr started))
  rw [same] at fine
  obtain ⟨joins,_,join_ok,fine⟩ := setProfiles_made accepts draws .join join _ fine
  obtain ⟨leaves,_,leave_ok,fine⟩ := setProfiles_made accepts _ .leave leave _ fine
  obtain ⟨puts,_,put_ok,fine⟩ := setProfiles_made accepts _ .put put _ fine
  obtain ⟨gets,_,get_ok,_⟩ := setProfiles_made accepts _ .get get _ fine
  have texts : r.text .join = join ∧ r.text .leave = leave ∧ r.text .put = put ∧ r.text .get = get := by
    unfold text
    rw [same]
    exact ⟨rfl,rfl,rfl,rfl⟩
  unfold enter Loop.start
  rw [texts.1,texts.2.1,texts.2.2.1,texts.2.2.2,join_ok]
  simp only [bind,Except.bind,leave_ok,put_ok,get_ok]
  exact ⟨_,rfl⟩

theorem handle_ready (r : Receiver) (ready : Ready accepts draws r) (stage : Stage) (header : MessageHeader)
    (here : r.pc = .body stage header) (consumed : Nat) (message : Message) : Ready accepts draws
      (handle accepts draws {r with consumed := consumed, got := r.got ++ [message]} stage message) := by
  -- A message of another kind would leave the controller in the body of the same message.
  have stays : Ready accepts draws {r with consumed := consumed, got := r.got ++ [message]} :=
    ⟨ready.fresh,ready.handed,fun started => by cases started.symm.trans here⟩
  cases stage with
  | dhtType =>
    cases message with
    | dhtType type =>
      have none := ready.fresh .dhtType (by simp) (Or.inr ⟨header,here⟩)
      simp only [handle]
      split
      · exact ⟨fun _ _ _ => none,by simp,by simp⟩
      · exact ⟨by simp,by simp,by simp⟩
    | _ => exact stays
  | profile =>
    cases message with
    | profile join leave put get =>
      have none : r.handed = [] := ready.fresh .profile (by simp) (Or.inr ⟨header,here⟩)
      obtain ⟨_,whole⟩ := setProfiles_part accepts [(.join,join),(.leave,leave),(.put,put),(.get,get)] draws
      simp only [handle]
      split
      next fine =>
        refine ⟨fun stage different at_stage => ?_,fun _ => ⟨join,leave,put,get,?_,?_⟩,by simp⟩
        · exact absurd at_stage (by simp [Ne.symm different])
        · simp only [none,List.nil_append]
          exact whole fine
        · simp only [none,List.nil_append]
          rw [whole fine]
          exact fine
      next fault _ => exact ⟨by simp,by simp,by simp⟩
    | _ => exact stays
  | start =>
    cases message with
    | start duration host entry self =>
      refine ⟨by simp [handle],fun _ => ready.handed (Or.inr (Or.inl ⟨header,here⟩)),fun _ => ⟨host,entry,self,?_⟩⟩
      exact List.mem_append_right _ (List.mem_singleton.mpr rfl)
    | _ => exact stays

theorem advance_ready (order : ByteOrder) (input : Bytes) (r after : Receiver) (ready : Ready accepts draws r)
    (ok : r.advance order accepts draws input = some after) : Ready accepts draws after := by
  unfold advance at ok
  split at ok
  next stage here =>
    split at ok
    next =>
      cases ok
      split
      next =>
        refine ⟨fun other different at_stage => ?_,fun at_start => ?_,by simp⟩
        · obtain ⟨header,same⟩ := at_stage.resolve_left (by simp)
          cases same
          exact ready.fresh stage different (Or.inl here)
        · obtain ⟨header,same⟩ := (at_start.resolve_left (by simp)).resolve_right (by simp)
          cases same
          exact ready.handed (Or.inl here)
      next => exact ⟨by simp,by simp,by simp⟩
    next => cases ok
  next stage header here =>
    split at ok
    next =>
      split at ok
      next =>
        cases ok
        exact ⟨by simp,by simp,by simp⟩
      next message _ =>
        cases ok
        exact handle_ready accepts draws r ready stage header here _ message
    next => cases ok
  next => cases ok
  next => cases ok

theorem advance_started (order : ByteOrder) (input : Bytes) (r : Receiver) (started : r.pc = .started) :
    r.advance order accepts draws input = none := by
  unfold advance
  rw [started]

end DhtperfController.Receiver

namespace Loop

def returned (s : Loop) : Bool :=
  match s.pc with
  | .ended .returned => true
  | _ => false

theorem returned_iff (s : Loop) : s.returned = true ↔ s.pc = .ended .returned := by
  unfold returned
  split
  next halted => simp [halted]
  next other => simp only [Bool.false_eq_true,false_iff]; exact other

end Loop

/-- Loops of controllers that have not entered `start` are not there yet. -/
structure Experiment where
  system : System
  loops : Nat → Option Loop

namespace Experiment

inductive Action
  | master (action : Dhtperf.Action)
  | controller (i : Nat)
  | start (i : Nat)
  | run (i : Nat) (action : Loop.Action)

def make (workload : MasterWorkload) (dhtType : Bytes) (lowLatency : Bool) (acceptor : Descriptor) : Experiment :=
  ⟨.make workload dhtType lowLatency acceptor,fun _ => none⟩

/-- What `reportResults` would send now. -/
def results (text : PosixTime) (s : Experiment) (i : Nat) : Results :=
  (((s.loops i).map Loop.dhtNode).getD .make).getResults text

section
variable [heap : StdHeap] (writes : WriteModel) (order : ByteOrder) (text : PosixTime) (accepts : Distributions)
  (draws : Nat → Draws)

/-- Each controller draws from a random device of its own. -/
def act (s : Experiment) : Action → Option Experiment
  | .master action =>
    (s.system.act writes order text accepts (.master action)).map fun system => {s with system := system}
  | .controller i =>
    (s.system.act writes order text accepts (.controller i (draws i))).map fun system => {s with system := system}
  | .start i =>
    match s.system.receivers[i]?,s.loops i with
    | some r,none =>
      if r.pc = .started then
        match r.enter accepts (draws i) with
        | .ok first => some {s with loops := Function.update s.loops i (some first)}
        | .error _ => none
      else none
    | _,_ => none
  | .run i action =>
    match s.loops i with
    | some loop => (loop.act action).map fun next => {s with loops := Function.update s.loops i (some next)}
    | none => none

inductive Moves (s : Experiment) : Action → Experiment → Prop
  | master (action : Dhtperf.Action) (master : DhtperfMaster)
      (made : DhtperfMaster.act ⟨order,text,writes⟩ s.system.master action = some master) :
      Moves s (.master action) {s with system := ⟨master,s.system.receivers ++
        List.replicate (master.controllers.length - s.system.master.controllers.length) .make⟩}
  | controller (i : Nat) (c : ControllerConnection) (r next : Receiver)
      (connected : s.system.master.controllers[i]? = some c) (place : s.system.receivers[i]? = some r)
      (advanced : r.advance order accepts (draws i) c.received = some next) :
      Moves s (.controller i) {s with system := {s.system with receivers := s.system.receivers.set i next}}
  | start (i : Nat) (r : Receiver) (first : Loop) (place : s.system.receivers[i]? = some r)
      (absent : s.loops i = none) (started : r.pc = .started) (entered : r.enter accepts (draws i) = .ok first) :
      Moves s (.start i) {s with loops := Function.update s.loops i (some first)}
  | run (i : Nat) (action : Loop.Action) (loop next : Loop) (here : s.loops i = some loop)
      (moved : loop.act action = some next) :
      Moves s (.run i action) {s with loops := Function.update s.loops i (some next)}

theorem act_moves (s after : Experiment) (action : Action)
    (acted : s.act writes order text accepts draws action = some after) :
    Moves writes order text accepts draws s action after := by
  cases action with
  | master action =>
    obtain ⟨system,moved,rfl⟩ := Option.map_eq_some_iff.mp acted
    obtain ⟨master,made,rfl⟩ := Option.map_eq_some_iff.mp moved
    exact .master action master made
  | controller i =>
    obtain ⟨system,moved,rfl⟩ := Option.map_eq_some_iff.mp acted
    simp only [System.act] at moved
    split at moved
    next c r connected place =>
      obtain ⟨next,advanced,rfl⟩ := Option.map_eq_some_iff.mp moved
      exact .controller i c r next connected place advanced
    next => cases moved
  | start i =>
    simp only [act] at acted
    split at acted
    next r place absent =>
      split at acted
      next started =>
        split at acted
        next first entered =>
          cases acted
          exact .start i r first place absent started entered
        next => cases acted
      next => cases acted
    next => cases acted
  | run i action =>
    simp only [act] at acted
    split at acted
    next loop here =>
      obtain ⟨next,moved,rfl⟩ := Option.map_eq_some_iff.mp acted
      exact .run i action loop next here moved
    next => cases acted

variable (time duration : Int → Prop)

omit heap in
/-- A controller writes its own results, once its loop has returned; the calls of its node
take times that can be written. -/
def Permitted (s : Experiment) : Action → Prop
  | .master (.receive i byte reachable) =>
    Spoken order (s.results text) s.system.master (.receive i byte reachable) ∧
      ∃ loop ∈ s.loops i, loop.returned = true
  | .run _ action => action.Within time duration
  | _ => True

omit heap in
instance [DecidablePred time] [DecidablePred duration] (s : Experiment) (action : Action) :
    Decidable (Permitted order text time duration s action) := by
  unfold Permitted
  split <;> infer_instance

abbrev Step : Experiment → Experiment → Prop :=
  Library.StepIf (act writes order text accepts draws) (Permitted order text time duration)

/-! ### Loops belong to controllers that have started -/

def Begun (receivers : List Receiver) (i : Nat) (loop : Loop) : Prop :=
  ∃ r first, receivers[i]? = some r ∧ r.pc = .started ∧ r.enter accepts (draws i) = .ok first ∧
    ReflTransGen (StepIf Loop.act fun _ action => action.Within time duration) first loop

structure Linked (s : Experiment) : Prop where
  ready : ∀ i r, s.system.receivers[i]? = some r → Receiver.Ready accepts (draws i) r
  begun : ∀ i loop, s.loops i = some loop → Begun accepts draws time duration s.system.receivers i loop

theorem make_linked (workload : MasterWorkload) (dhtType : Bytes) (lowLatency : Bool) (acceptor : Descriptor) :
    Linked accepts draws time duration (make workload dhtType lowLatency acceptor) where
  ready := fun i r here => by simp [make,System.make] at here
  begun := fun i loop here => by cases here

theorem system_linked (s : Experiment) (system : System) (linked : Linked accepts draws time duration s)
    (ready : ∀ i r, system.receivers[i]? = some r → Receiver.Ready accepts (draws i) r)
    (kept : ∀ (i : Nat) (r : Receiver), s.system.receivers[i]? = some r → r.pc = .started →
      system.receivers[i]? = some r) : Linked accepts draws time duration {s with system := system} := by
  refine ⟨ready,fun i loop here => ?_⟩
  obtain ⟨r,first,place,started,entered,run⟩ := linked.begun i loop here
  exact ⟨r,first,kept i r place started,started,entered,run⟩

theorem loop_linked (s : Experiment) (i : Nat) (loop : Loop) (linked : Linked accepts draws time duration s)
    (begun : Begun accepts draws time duration s.system.receivers i loop) :
    Linked accepts draws time duration {s with loops := Function.update s.loops i (some loop)} := by
  refine ⟨linked.ready,fun k other here => ?_⟩
  by_cases same : k = i
  · subst same
    simp only [Function.update_self] at here
    cases here
    exact begun
  · simp only [Function.update_of_ne same] at here
    exact linked.begun k other here

theorem step_linked (before after : Experiment) (linked : Linked accepts draws time duration before)
    (step : Step .intact order text accepts draws time duration before after) :
    Linked accepts draws time duration after := by
  obtain ⟨action,permitted,acted⟩ := step
  cases act_moves .intact order text accepts draws before after action acted with
  | master action master made =>
    refine system_linked accepts draws time duration before _ linked (fun k r here => ?_) fun k r here _ => ?_
    · rw [List.getElem?_append] at here
      split at here
      · exact linked.ready k r here
      · rw [List.getElem?_replicate] at here
        split at here
        · cases here
          exact Receiver.make_ready accepts (draws k)
        · cases here
    · exact (List.getElem?_append_left (List.getElem?_eq_some_iff.mp here).1).trans here
  | controller i c r next connected place advanced =>
    refine system_linked accepts draws time duration before _ linked (fun k other here => ?_)
      fun k other here started => ?_
    · rw [List.getElem?_set] at here
      split at here
      next same =>
        subst same
        split at here
        · cases here
          exact Receiver.advance_ready accepts (draws i) order c.received r next (linked.ready i r place) advanced
        · cases here
      next => exact linked.ready k other here
    · -- A started controller reads no further message.
      have different : i ≠ k := by
        rintro rfl
        cases place.symm.trans here
        rw [Receiver.advance_started accepts (draws i) order c.received r started] at advanced
        cases advanced
      exact (List.getElem?_set_ne different).trans here
  | start i r first place absent started entered =>
    exact loop_linked accepts draws time duration before i first linked ⟨r,first,place,started,entered,.refl⟩
  | run i action loop next here moved =>
    obtain ⟨r,first,place,started,entered,run⟩ := linked.begun i loop here
    exact loop_linked accepts draws time duration before i next linked
      ⟨r,first,place,started,entered,run.tail ⟨action,permitted,moved⟩⟩

/-! ### The experiment seen by the master -/

/-- What every loop that has returned will have reported. -/
def Foreseen (told : Nat → Results) (s : Experiment) : Prop :=
  ∀ i, ∀ loop ∈ s.loops i, loop.returned = true → told i = loop.dhtNode.getResults text

omit heap in
theorem results_foreseen (s : Experiment) : Foreseen text (s.results text) s := by
  intro i loop here _
  unfold results
  rw [Option.mem_def.mp here]
  rfl

theorem step_ended (before after : Experiment) (i : Nat) (loop : Loop) (here : before.loops i = some loop)
    (ending : Ending) (ended : loop.pc = .ended ending)
    (step : Step .intact order text accepts draws time duration before after) : after.loops i = some loop := by
  obtain ⟨action,_,acted⟩ := step
  cases act_moves .intact order text accepts draws before after action acted with
  | master action master made => exact here
  | controller k c r next connected place advanced => exact here
  | start k r first place absent started entered =>
    have different : i ≠ k := by
      rintro rfl
      cases absent.symm.trans here
    exact (Function.update_of_ne different _ _).trans here
  | run k action other next place moved =>
    have different : i ≠ k := by
      rintro rfl
      cases place.symm.trans here
      rw [Loop.act_ended loop action ending ended] at moved
      cases moved
    exact (Function.update_of_ne different _ _).trans here

theorem step_foreseen (told : Nat → Results) (before after : Experiment)
    (step : Step .intact order text accepts draws time duration before after) (foreseen : Foreseen text told after) :
    Foreseen text told before := fun i loop here halted =>
  foreseen i loop (step_ended order text accepts draws time duration before after i loop here .returned
    ((Loop.returned_iff loop).mp halted) step) halted

theorem step_system (told : Nat → Results) (before after : Experiment)
    (linked : Linked accepts draws time duration before) (foreseen : Foreseen text told before)
    (step : Step .intact order text accepts draws time duration before after) :
    ReflTransGen (System.Step .intact order text told accepts) before.system after.system := by
  obtain ⟨action,permitted,acted⟩ := step
  cases act_moves .intact order text accepts draws before after action acted with
  | master action master made =>
    refine .single ⟨.master action,?_,Option.map_eq_some_iff.mpr ⟨master,made,rfl⟩⟩
    cases action with
    | receive i byte reachable =>
      obtain ⟨spoken,loop,here,halted⟩ := permitted
      have same : before.results text i = told i := by
        unfold results
        rw [Option.mem_def.mp here]
        exact (foreseen i loop here halted).symm
      obtain ⟨r,_,place,started,_⟩ := linked.begun i loop here
      refine ⟨fun c connected => ?_,r,place,started⟩
      have next := spoken c connected
      unfold stream at next ⊢
      rw [← same]
      exact next
    | _ => trivial
  | controller i c r next connected place advanced =>
    refine .single ⟨.controller i (draws i),trivial,?_⟩
    simp only [System.act,connected,place,advanced,Option.map_some]
  | start => exact .refl
  | run => exact .refl

/-- An experiment is a run of the master and its controllers in which every controller
reports what its loop has measured by the time it returns; nothing is fixed about the
controllers whose loops have not. -/
theorem run_system (told : Nat → Results) (first s : Experiment) (linked : Linked accepts draws time duration first)
    (run : ReflTransGen (Step .intact order text accepts draws time duration) first s) (foreseen : Foreseen text told s) :
    ReflTransGen (System.Step .intact order text told accepts) first.system s.system :=
  run_foreseen system run linked (step_linked order text accepts draws time duration)
    (step_foreseen order text accepts draws time duration told)
    (step_system order text accepts draws time duration told) foreseen

end

end Experiment
end Dhtperf
