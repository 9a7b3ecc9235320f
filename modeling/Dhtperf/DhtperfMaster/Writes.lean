import Dhtperf.DhtperfMaster.Counts
import Dhtperf.ControllerConnection.Writing

/-! The bytes a controller receives while each connection has one buffer for all its
writes. They are the bits of the messages, in order, in the runs that never send a
message before the last one is gone. -/
namespace Dhtperf
open Library Relation ControllerConnection

namespace DhtperfMaster

/-- Every message that is sent finds the buffer of its connection unused: the type is
gone before the profile is sent, and both are when the Start messages are. -/
def Drained (order : ByteOrder) (m : DhtperfMaster) : Action → Prop
  | .accept _ _ luck =>
    (Message.bits order (.dhtType m.dhtType)).length ≤ luck.dhtTypeAtOnce ∧
      (m.workload.nodes.toNat ≤ m.controllers.length + 1 →
        (∀ p ∈ m.workload.getNodeProfile m.controllers.length,
          ((profileMessage p).bits order).length ≤ luck.profileAtOnce) ∧
        ∀ c ∈ m.controllers, c.writes = [])
  | _ => True

instance (order : ByteOrder) (m : DhtperfMaster) (action : Action) : Decidable (Drained order m action) :=
  match action with
  | .accept _ _ _ => by dsimp only [Drained]; infer_instance
  | .acceptError | .receive _ _ _ | .readError _ _ | .writeError _ | .transmit _ _ _ _ | .timeout => .isTrue trivial

theorem writes_sentWith (c : ControllerConnection) (message : Message) (bits : Bytes) (atOnce : Nat)
    (idle : c.writes = []) (whole : bits.length ≤ atOnce) : (c.sentWith message bits atOnce).writes = [] := by
  simp [sentWith,idle,Nat.not_lt.mpr whole]

theorem greet_drained (platform : Platform) (m : DhtperfMaster) (descriptor : Descriptor) (address : Bytes)
    (luck : AcceptLuck) (c : ControllerConnection) (ok : m.greet platform descriptor address luck = .ok c)
    (drained : (Message.bits platform.order (.dhtType m.dhtType)).length ≤ luck.dhtTypeAtOnce) :
    InOrder platform.order c ∧ Alone c ∧
      ((∀ p ∈ m.workload.getNodeProfile m.controllers.length,
        ((profileMessage p).bits platform.order).length ≤ luck.profileAtOnce) → c.writes = []) := by
  obtain ⟨first,p,second,written,given,written',rfl⟩ := greet_shape platform m descriptor address luck c ok
  have same := (Message.toBits_bits _ _ _ written).1
  have same' := (Message.toBits_bits _ _ _ written').1
  have idle : (greeted m descriptor address first luck).writes = [] :=
    writes_sentWith _ _ _ _ rfl (by rw [same]; exact drained)
  refine ⟨?_,alone_sentWith _ _ _ _ idle,fun fits => ?_⟩
  · exact InOrder.send _ _ _ _ _ written' (Or.inl idle)
      (InOrder.send _ _ _ _ _ written (Or.inl rfl) (make_inOrder platform.order descriptor address))
  · apply writes_sentWith _ _ _ _ idle
    rw [immediate_idle _ _ _ idle,same']
    exact fits p given

variable (order : ByteOrder) (text : PosixTime)

/-- One buffer is enough for a step that sends nothing into a buffer in use. -/
theorem step_drained (before after : DhtperfMaster)
    (step : StepIf ⟨order,text,.shared⟩ (Drained order) before after)
    (here : Everywhere (fun _ _ c => InOrder order c ∧ Alone c) before) :
    Everywhere (fun _ _ c => InOrder order c ∧ Alone c) after := by
  obtain ⟨action,allowed,acted⟩ := step
  refine everywhere_moves ⟨order,text,.shared⟩ _ before after action (act_moves _ before after action acted).2 here
    ?readOnly ?transmitted ?greeted ?begun
  case readOnly =>
    intro _ _ c header body reads taken known
    exact ⟨⟨known.1.fits,known.1.split⟩,known.2⟩
  case transmitted =>
    intro _ c d index count beyond sent known
    exact known.1.transmit_alone order c d index count beyond known.2 sent
  case greeted =>
    intro descriptor address luck c accepting _ welcome
    subst accepting
    have fresh := greet_drained _ before descriptor address luck c welcome allowed.1
    exact ⟨fresh.1,fresh.2.1⟩
  case begun =>
    intro descriptor address luck new i c bits accepting _ last welcome found written known
    subst accepting
    have fresh := greet_drained _ before descriptor address luck new welcome allowed.1
    have idle : c.writes = [] := by
      rcases List.mem_append.mp (List.mem_of_getElem? found) with old | same
      · exact (allowed.2 last).2 c old
      · rw [List.mem_singleton.mp same]
        exact fresh.2.2 (allowed.2 last).1
    exact ⟨known.1.send order c _ bits _ written (Or.inl idle),alone_sentWith c _ bits _ idle⟩

/-- In every run that sends no message into a buffer in use, what a controller has
received is the beginning of the bits of the messages sent to it, and all of it as soon as
no write is pending. -/
theorem writes_in_order (workload : MasterWorkload) (dhtType : Bytes) (lowLatency : Bool) (acceptor : Descriptor)
    (m : DhtperfMaster) (run : ReflTransGen (StepIf ⟨order,text,.shared⟩ (Drained order))
      (.make workload dhtType lowLatency acceptor) m) :
    ∀ c ∈ m.controllers, ∃ bits, c.sent.mapM (Message.toBits order) = .ok bits ∧
      c.received ++ c.untransmitted = bits.flatten ∧ (c.writes = [] → c.received = bits.flatten) := by
  have all : Everywhere (fun _ _ c => InOrder order c ∧ Alone c) m :=
    run_invariant run (fun i c found => by simp [make] at found) fun before after known step =>
      step_drained order text before after step known
  intro c member
  obtain ⟨i,found⟩ := List.mem_iff_getElem?.mp member
  obtain ⟨⟨fits,split⟩,_⟩ := all i c found
  rw [List.flatMap_def] at split
  refine ⟨_,Message.toBits_all order c.sent fits,split,fun idle => ?_⟩
  rw [← split,untransmitted,idle,List.flatMap_nil,List.append_nil]

/-- A Start message that leaves in two parts, after the others have left whole. -/
theorem start_in_parts : ∃ m : DhtperfMaster, m.startMessagesSent = true ∧
    ∀ c ∈ m.controllers, ∃ bits, c.sent.mapM (Message.toBits .little) = .ok bits ∧
      c.received ++ c.untransmitted = bits.flatten ∧ (c.writes = [] → c.received = bits.flatten) := by
  obtain ⟨m,run,shape⟩ := perform_run (act ⟨.little,NodeLatency.oneDay,.shared⟩) (Drained .little)
    [.accept 4 (ascii "host") ⟨fun _ => true,100,100,fun _ => 3⟩,.transmit 0 0 5 []]
    (make loneWorkload (ascii "dummy") true 3) (fun m => m.startMessagesSent) (by decide)
  exact ⟨m,shape,writes_in_order .little NodeLatency.oneDay loneWorkload (ascii "dummy") true 3 m run⟩

/-- A socket that takes nothing at once: the type is written when the buffer already
holds the profile, and the controller receives the beginning of a Profile message. -/
theorem type_overwritten : ∃ m, ReflTransGen (Step ⟨.little,NodeLatency.oneDay,.shared⟩)
    (make pairWorkload (ascii "dummy") true 3) m ∧ ∃ c ∈ m.controllers, c.writes = [] ∧
      ¬∃ bits, c.sent.mapM (Message.toBits .little) = .ok bits ∧ c.received = bits.flatten := by
  obtain ⟨m,run,shape⟩ := perform_run (act ⟨.little,NodeLatency.oneDay,.shared⟩) (fun _ _ => True)
    [.accept 4 (ascii "host") ⟨fun _ => true,0,0,fun _ => 0⟩,.transmit 0 0 13 [],.transmit 0 0 43 []]
    (make pairWorkload (ascii "dummy") true 3)
    (fun m => m.controllers.any fun c => c.writes = [] &&
      match c.sent.mapM (Message.toBits .little) with
      | .ok bits => c.received ≠ bits.flatten
      | .error _ => true) (by decide)
  obtain ⟨c,member,wrong⟩ := List.any_eq_true.mp shape
  rw [Bool.and_eq_true,decide_eq_true_eq] at wrong
  refine ⟨m,runIf_run _ _ _ m run,c,member,wrong.1,?_⟩
  rintro ⟨bits,written,same⟩
  have different := wrong.2
  rw [written] at different
  exact absurd same (of_decide_eq_true different)

end DhtperfMaster
end Dhtperf
