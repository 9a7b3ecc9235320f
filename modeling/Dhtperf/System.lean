import Dhtperf.DhtperfMaster.Opening
import Dhtperf.DhtperfController.Receiving
import Dhtperf.MasterWorkload.Lines

/-! The master and its controllers together, on reliable connections. What a `sendMessage`
puts on one is up to `writes`; results about whole runs are for `.intact`, where every message
is delivered as it was. Both sides run on their own; a controller reads what has been put on
its connection, and the master reads what a controller writes after `start`. -/
namespace Dhtperf
open Library Relation DhtperfController DhtperfMaster

structure System where
  master : DhtperfMaster
  receivers : List Receiver

namespace System

inductive Action
  | master (action : Dhtperf.Action)
  | controller (i : Nat) (draws : Draws)

def make (workload : MasterWorkload) (dhtType : Bytes) (lowLatency : Bool) (acceptor : Descriptor) : System :=
  ⟨.make workload dhtType lowLatency acceptor,[]⟩

section
variable [heap : StdHeap] (writes : WriteModel) (order : ByteOrder) (text : PosixTime) (results : Nat → Results)
  (accepts : Distributions)

/-- A connection that the master has accepted is a controller that starts to read. -/
def act (s : System) : Action → Option System
  | .master action =>
    (DhtperfMaster.act ⟨order,text,writes⟩ s.master action).map fun master =>
      ⟨master,s.receivers ++ List.replicate (master.controllers.length - s.master.controllers.length) .make⟩
  | .controller i draws =>
    match s.master.controllers[i]?,s.receivers[i]? with
    | some c,some r =>
      (r.advance order accepts draws c.received).map fun next => {s with receivers := s.receivers.set i next}
    | _,_ => none

omit heap in
/-- Bytes come from controllers that have been through `start`, as they write them. -/
def Reporting (s : System) : Action → Prop
  | .master (.receive i byte reachable) =>
    Spoken order results s.master (.receive i byte reachable) ∧ ∃ r ∈ s.receivers[i]?, r.pc = .started
  | _ => True

omit heap in
instance (s : System) (action : Action) : Decidable (Reporting order results s action) := by
  unfold Reporting
  split <;> infer_instance

abbrev Step : System → System → Prop := Library.StepIf (act writes order text accepts) (Reporting order results)

structure Agreed (workload : MasterWorkload) (dhtType : Bytes) (start : ResultProcessor) (s : System) : Prop where
  courteous : Courteous ⟨order,text,.intact⟩ results workload dhtType start s.master
  paired : s.receivers.length = s.master.controllers.length
  follows : ∀ (i : Nat) (c : ControllerConnection) (r : Receiver), s.master.controllers[i]? = some c →
    s.receivers[i]? = some r → ∃ p, workload.getNodeProfile i = some p ∧ Receiver.Follows order p c.sent r

omit heap in
theorem make_follows (p : MasterWorkloadProfile) (sent : List Message) :
    Receiver.Follows order p sent .make where
  known := List.nil_prefix
  placed := ⟨rfl,rfl⟩
  handed := rfl

omit heap in
theorem reporting_spoken (s : System) (action : Dhtperf.Action)
    (reporting : Reporting order results s (.master action)) : Spoken order results s.master action := by
  cases action with
  | receive i byte reachable => exact reporting.1
  | _ => trivial

theorem controller_agreed (workload : MasterWorkload) (dhtType : Bytes) (start : ResultProcessor) (s : System)
    (i : Nat) (c : ControllerConnection) (r next : Receiver) (draws : Draws)
    (connected : s.master.controllers[i]? = some c) (here : s.receivers[i]? = some r)
    (advanced : r.advance order accepts draws c.received = some next)
    (agreed : Agreed order text results workload dhtType start s) :
    Agreed order text results workload dhtType start {s with receivers := s.receivers.set i next} := by
  obtain ⟨courteous,paired,follows⟩ := agreed
  refine ⟨courteous,by simp [paired],fun k d q place found => ?_⟩
  rw [List.getElem?_set] at found
  split at found
  next same =>
    subst same
    split at found
    next =>
      cases found
      cases connected.symm.trans place
      obtain ⟨p,given,follow⟩ := follows i c r connected here
      obtain ⟨inOrder,p',given',sent⟩ := courteous.opened i c connected
      cases given.symm.trans given'
      obtain ⟨addresses,shape⟩ : ∃ addresses, c.sent <+:
          [.dhtType dhtType,profileMessage p,startMessage workload addresses i] := by
        split at sent
        · obtain ⟨addresses,sent⟩ := sent
          exact ⟨addresses,sent ▸ List.prefix_rfl⟩
        · exact ⟨[],sent ▸ ⟨[_],rfl⟩⟩
      exact ⟨p,given,Receiver.advance_follows order accepts draws c.sent p dhtType _ _ _ _ shape inOrder.fits
        c.received ⟨_,inOrder.split⟩ r next advanced follow⟩
    next => cases found
  next => exact follows k d q place found

omit heap in
theorem master_agreed (workload : MasterWorkload) (dhtType : Bytes) (start : ResultProcessor) (s : System)
    (action : Dhtperf.Action) (after : DhtperfMaster) (spoken : Spoken order results s.master action)
    (acted : DhtperfMaster.act ⟨order,text,.intact⟩ s.master action = some after)
    (agreed : Agreed order text results workload dhtType start s) :
    Agreed order text results workload dhtType start
      ⟨after,s.receivers ++ List.replicate (after.controllers.length - s.master.controllers.length) .make⟩ := by
  obtain ⟨courteous,paired,follows⟩ := agreed
  have later := step_courteous ⟨order,text,.intact⟩ rfl results workload dhtType start s.master after courteous
    ⟨action,spoken,acted⟩
  obtain ⟨more,grown⟩ := moves_grow ⟨order,text,.intact⟩ s.master after action
    (act_moves ⟨order,text,.intact⟩ s.master after action acted).2
  refine ⟨later,by simp [paired]; omega,fun i d r connected here => ?_⟩
  obtain ⟨_,p,given,_⟩ := later.opened i d connected
  refine ⟨p,given,?_⟩
  rw [List.getElem?_append] at here
  split at here
  next old =>
    obtain ⟨c,place⟩ : ∃ c, s.master.controllers[i]? = some c := ⟨_,List.getElem?_eq_getElem (paired ▸ old)⟩
    obtain ⟨q,known,follow⟩ := follows i c r place here
    cases known.symm.trans given
    exact follow.more order p c.sent d.sent r (grown i c d place connected)
  next new =>
    rw [List.getElem?_replicate] at here
    split at here
    · cases here
      exact make_follows order p d.sent
    · cases here

theorem step_agreed (workload : MasterWorkload) (dhtType : Bytes) (start : ResultProcessor) (before after : System)
    (agreed : Agreed order text results workload dhtType start before)
    (step : Step .intact order text results accepts before after) :
    Agreed order text results workload dhtType start after := by
  obtain ⟨action,reporting,moved⟩ := step
  cases action with
  | master action =>
    obtain ⟨master,acted,rfl⟩ := Option.map_eq_some_iff.mp moved
    exact master_agreed order text results workload dhtType start before action master
      (reporting_spoken order results before action reporting) acted agreed
  | controller i draws =>
    simp only [act] at moved
    split at moved
    next c r connected here =>
      obtain ⟨next,advanced,rfl⟩ := Option.map_eq_some_iff.mp moved
      exact controller_agreed order text results accepts workload dhtType start before i c r next draws connected here
        advanced agreed
    next => cases moved

structure Served (file dhtType : Bytes) (given : UInt32) (workload : MasterWorkload) (started : Bool) (i : Nat)
    (c : ControllerConnection) (r : Receiver) (p : MasterWorkloadProfile) : Prop where
  named : MasterWorkload.NamedBy given (MasterWorkload.matchedLines file) (UInt32.ofNat i) p.name
  strings : ∀ op, MasterWorkload.GivenBy (MasterWorkload.matchedLines file) p.name op (p.text op)
  sent : ∃ addresses, c.sent = [.dhtType dhtType,profileMessage p] ++
    if started then [startMessage workload addresses i] else []
  received : c.received <+: c.sent.flatMap (Message.bits order)
  got : r.got <+: c.sent
  opcodes : r.pc ≠ .exited .unexpectedOpcode
  complete : r.pc = .started → r.got = c.sent
  handed : r.handed <+: [(.join,p.text .join),(.leave,p.text .leave),(.put,p.text .put),(.get,p.text .get)]
  all : 2 ≤ r.got.length → (∀ fault, r.pc ≠ .exited fault) →
    r.handed = [(.join,p.text .join),(.leave,p.text .leave),(.put,p.text .put),(.get,p.text .get)]

omit heap in
theorem agreed_served (file dhtType : Bytes) (given : UInt32) (workload : MasterWorkload)
    (loaded : MasterWorkload.loadConfig file given = .ok (some workload)) (start : ResultProcessor) (s : System)
    (agreed : Agreed order text results workload dhtType start s) (i : Nat) (c : ControllerConnection)
    (r : Receiver) (connected : s.master.controllers[i]? = some c) (here : s.receivers[i]? = some r) :
    ∃ p, Served order file dhtType given workload s.master.startMessagesSent i c r p := by
  obtain ⟨courteous,paired,follows⟩ := agreed
  obtain ⟨p,profile,known,placed,handed⟩ := follows i c r connected here
  obtain ⟨inOrder,p',profile',sent⟩ := courteous.opened i c connected
  cases profile.symm.trans profile'
  have node : i < workload.nodes.toNat := by
    have bound := (List.getElem?_eq_some_iff.mp connected).1
    have most := courteous.telling.counts.length_le
    rw [courteous.workload_eq] at most
    omega
  have said := MasterWorkload.getNodeProfile_given file given workload loaded i node p profile
  have shape : ∃ addresses, c.sent = [.dhtType dhtType,profileMessage p] ++
      if s.master.startMessagesSent then [startMessage workload addresses i] else [] := by
    split at sent
    next started =>
      obtain ⟨addresses,sent⟩ := sent
      exact ⟨addresses,by rw [sent,if_pos started]; rfl⟩
    next waiting => exact ⟨[],by rw [sent,if_neg waiting]; rfl⟩
  have calls_handed : r.handed <+: Receiver.calls p := by
    unfold Receiver.Handed at handed
    split at handed
    · rw [handed]
      split
      · exact List.prefix_rfl
      · exact List.nil_prefix
    · rw [handed]
      split
      · exact List.prefix_rfl
      · exact List.nil_prefix
    · exact handed ▸ List.prefix_rfl
    · exact handed
  unfold Receiver.Placed at placed
  refine ⟨p,said.1,said.2,shape,⟨_,inOrder.split⟩,known,fun wrong => ?_,fun done => ?_,calls_handed,?_⟩
  · rw [wrong] at placed
    exact placed rfl
  · rw [done] at placed
    obtain ⟨addresses,shape⟩ := shape
    have most : c.sent.length ≤ 3 := by
      rw [shape]
      split <;> simp
    exact known.eq_of_length_le (by rw [placed]; exact most)
  · intro two fine
    unfold Receiver.Handed at handed
    cases place : r.pc with
    | header stage =>
      rw [place] at placed handed
      cases stage with
      | start => exact handed
      | dhtType => exact absurd (two.trans_eq placed.1) (by decide)
      | profile => exact absurd (two.trans_eq placed.1) (by decide)
    | body stage header =>
      rw [place] at placed handed
      cases stage with
      | start => exact handed
      | dhtType => exact absurd (two.trans_eq placed.1) (by decide)
      | profile => exact absurd (two.trans_eq placed.1) (by decide)
    | started =>
      rw [place] at handed
      exact handed
    | exited fault => exact absurd place (fine fault)

/-- With intact delivery, whatever the interleaving: connections are accepted until there
are as many as nodes and no further; Start messages are sent when all are there; every
controller gets the type, the profile of its node and one Start message, in this order,
and hands over the four strings the file gives to that profile; and the master never
meets a message or a report that it does not know. -/
theorem agreement (file dhtType : Bytes) (given : UInt32) (workload : MasterWorkload)
    (loaded : MasterWorkload.loadConfig file given = .ok (some workload)) (lowLatency : Bool)
    (acceptor : Descriptor) (s : System)
    (run : ReflTransGen (Step .intact order text results accepts) (make workload dhtType lowLatency acceptor) s) :
    (if s.master.startMessagesSent then
        s.master.controllers.length = workload.nodes.toNat ∧ s.master.accepts = 0
      else s.master.controllers.length < workload.nodes.toNat ∧ s.master.accepts = 1) ∧
      (∀ c ∈ s.master.controllers, ∀ m ∈ c.sent, m.opcode = Opcode.start →
        s.master.controllers.length = workload.nodes.toNat) ∧
      s.receivers.length = s.master.controllers.length ∧
      (∀ (i : Nat) (c : ControllerConnection) (r : Receiver), s.master.controllers[i]? = some c →
        s.receivers[i]? = some r →
          ∃ p, Served order file dhtType given workload s.master.startMessagesSent i c r p) ∧
      s.master.pc ≠ .aborted .invalidOpcode ∧ s.master.pc ≠ .aborted .invalidResultType ∧
      ∀ error, s.master.pc ≠ .aborted (.decode error) := by
  have positive := MasterWorkload.valid_nodes workload (MasterWorkload.loadConfig_valid file given workload loaded)
  have agreed : Agreed order text results workload dhtType (.make dhtType lowLatency) s := by
    refine run_invariant run ⟨⟨rfl,rfl,?_,?_,nofun⟩,rfl,?_⟩ fun before after known step =>
      step_agreed order text results accepts workload dhtType _ before after known step
    · exact make_telling _ results workload dhtType lowLatency acceptor positive
    · exact fun i c found => by simp [make,DhtperfMaster.make] at found
    · exact fun i c r connected => by simp [make,DhtperfMaster.make] at connected
  have size := agreed.courteous.telling.counts.size
  rw [agreed.courteous.workload_eq] at size
  have served := agreed_served order text results file dhtType given workload loaded _ s agreed
  refine ⟨size,?_,agreed.paired,served,?_,?_,?_⟩
  · intro c member m sent starts
    obtain ⟨i,connected⟩ := List.mem_iff_getElem?.mp member
    obtain ⟨_,p,_,shape⟩ := agreed.courteous.opened i c connected
    split at shape
    next started =>
      rw [if_pos started] at size
      exact size.1
    next =>
      -- Neither of the first two messages is a Start message.
      rw [shape] at sent
      simp only [List.mem_cons,List.not_mem_nil,or_false] at sent
      rcases sent with rfl | rfl
      · exact absurd starts (show Opcode.dhtType ≠ Opcode.start by decide)
      · exact absurd starts (show Opcode.profile ≠ Opcode.start by decide)
  · exact fun aborted => agreed.courteous.outside _ aborted
  · exact fun aborted => agreed.courteous.outside _ aborted
  · exact fun error aborted => agreed.courteous.outside _ aborted

end

/-- Two nodes, the first one on a slow connection, and a report of the first one. -/
theorem pair_agreement : ∃ s : System, s.master.reportLog = [(0,ascii "JoinLatency",[])] ∧
    (∀ r ∈ s.receivers, r.pc = .started ∧
      r.handed = [(.join,ascii "exact 0"),(.leave,ascii "none"),(.put,ascii "none"),(.get,ascii "none")]) ∧
    s.master.pc ≠ .aborted .invalidResultType ∧
    ∀ i < 2, ∃ c r p, s.master.controllers[i]? = some c ∧ s.receivers[i]? = some r ∧
      Served .little pairFile (ascii "dummy") 0 pairWorkload s.master.startMessagesSent i c r p := by
  obtain ⟨s,run,shape⟩ := perform_run
    (@act plainHeap .intact .little NodeLatency.oneDay ⟨fun _ => true,fun _ _ => true⟩)
    (Reporting .little fun _ => DhtNode.make.getResults NodeLatency.oneDay)
    ([.master (.accept 4 (ascii "host") ⟨fun _ => true,4,100,fun _ => 100⟩),.master (.transmit 0 0 9 []),
      .controller 0 id,.controller 0 id,.master (.accept 5 (ascii "other") smooth),.master (.transmit 0 0 43 []),
      .controller 0 id,.controller 0 id,.controller 1 id,.controller 1 id,.controller 1 id,.controller 1 id,
      .controller 1 id,.controller 1 id,.master (.transmit 0 0 16 []),.controller 0 id,.controller 0 id] ++
      ((stream .little (fun _ => DhtNode.make.getResults NodeLatency.oneDay) 0).take 20).map
        fun byte => .master (.receive 0 byte true))
    (make pairWorkload (ascii "dummy") true 3)
    (fun s => s.receivers.length = 2 ∧ s.master.reportLog = [(0,ascii "JoinLatency",[])] ∧ ∀ r ∈ s.receivers,
      r.pc = .started ∧ r.handed = [(.join,ascii "exact 0"),(.leave,ascii "none"),(.put,ascii "none"),
        (.get,ascii "none")]) (by decide +kernel)
  obtain ⟨two,reports,all⟩ := of_decide_eq_true shape
  obtain ⟨_,_,paired,served,_,known,_⟩ := @agreement plainHeap .little NodeLatency.oneDay
    (fun _ => DhtNode.make.getResults NodeLatency.oneDay) ⟨fun _ => true,fun _ _ => true⟩ pairFile (ascii "dummy") 0
    pairWorkload rfl true 3 s run
  refine ⟨s,reports,all,known,fun i bound => ?_⟩
  have place := List.getElem?_eq_getElem (l := s.receivers) (i := i) (two.symm ▸ bound)
  have connected := List.getElem?_eq_getElem (l := s.master.controllers) (i := i) (paired ▸ two.symm ▸ bound)
  obtain ⟨p,given⟩ := served i _ _ connected place
  exact ⟨_,_,p,connected,place,given⟩

end System
end Dhtperf
