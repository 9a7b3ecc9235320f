import Dhtperf.DhtperfMaster.Reports
import Dhtperf.ControllerConnection.Writing

/-! The master's side of the agreement with a controller: what each connection is sent, in
which order, and that nothing a controller says makes the master give up on it. -/
namespace Dhtperf
open Library Relation ControllerConnection DhtperfController

/-- The ways to end that do not accuse the peer of speaking another protocol. -/
def Abort.Outside : Abort → Prop
  | .decode _ => False
  | .invalidOpcode => False
  | .invalidResultType => False
  | _ => True

theorem ResultProcessor.pushResult_outside (text : PosixTime) (results : ResultProcessor) (type value : Bytes)
    (known : type ∈ resultTypes) (abort : Abort) (failed : results.pushResult text type value = .error abort) :
    abort.Outside := by
  have latency : ∀ operation, results.pushLatency text operation value = .error abort → abort.Outside := by
    intro operation failed
    unfold pushLatency at failed
    split at failed
    · cases failed
      trivial
    · cases failed
  simp only [resultTypes,List.mem_cons,List.not_mem_nil,or_false] at known
  rcases known with rfl | rfl | rfl | rfl | rfl | rfl
  · exact latency .join failed
  · exact latency .leave failed
  · exact latency .get failed
  · exact latency .put failed
  · cases failed
  · cases failed

namespace DhtperfMaster
variable (platform : Platform)

/-! ### Ends -/

theorem sendMessage_outside (c : ControllerConnection) (message : Message) (atOnce : Nat) (abort : Abort)
    (failed : c.sendMessage platform.order platform.writes message atOnce = .error abort) : abort.Outside := by
  unfold sendMessage at failed
  split at failed
  · cases failed
    trivial
  · cases failed

theorem greet_outside (m : DhtperfMaster) (descriptor : Descriptor) (address : Bytes) (luck : AcceptLuck)
    (abort : Abort) (failed : m.greet platform descriptor address luck = .error abort) : abort.Outside := by
  unfold greet at failed
  simp only at failed
  split at failed
  · cases failed
    trivial
  · rcases bind_failed failed with failed | ⟨b,_,failed⟩
    · exact sendMessage_outside platform _ _ _ abort failed
    · split at failed
      · cases failed
        trivial
      · exact sendMessage_outside platform _ _ _ abort failed

theorem sendStartMessages_outside (luck : AcceptLuck) (message : Nat → Message) (i : Nat)
    (cs : List ControllerConnection) (abort : Abort)
    (failed : sendStartMessages platform luck message i cs = .error abort) : abort.Outside := by
  induction cs generalizing i with
  | nil => cases failed
  | cons c cs ih =>
    unfold sendStartMessages at failed
    simp only at failed
    split at failed
    · cases failed
      trivial
    · split at failed
      · cases failed
        trivial
      · rcases bind_failed failed with failed | ⟨d,_,failed⟩
        · exact sendMessage_outside platform _ _ _ abort failed
        · rcases bind_failed failed with failed | ⟨rest,_,failed⟩
          · exact ih (i+1) failed
          · cases failed

theorem handleAccept_outside (m : DhtperfMaster) (descriptor : Descriptor) (address : Bytes) (luck : AcceptLuck)
    (abort : Abort) (failed : m.handleAccept platform descriptor address luck = .error abort) : abort.Outside := by
  rcases bind_failed failed with failed | ⟨c,_,failed⟩
  · exact greet_outside platform m descriptor address luck abort failed
  · simp only at failed
    split at failed
    · cases failed
    · rcases bind_failed failed with failed | ⟨controllers,_,failed⟩
      · exact sendStartMessages_outside platform luck _ 0 _ abort failed
      · cases failed

/-- A controller that runs the controller program is understood, whatever it has measured. -/
theorem told_outside (results : Nat → Results) (start : ResultProcessor) (m : DhtperfMaster) (action : Action)
    (telling : Telling platform results start m) (spoken : Spoken platform.order results m action) (abort : Abort)
    (fails : Fails platform m abort action) : abort.Outside := by
  cases action with
  | accept descriptor address luck => exact handleAccept_outside platform m descriptor address luck abort fails.2
  | acceptError =>
    cases fails
    trivial
  | writeError i =>
    cases fails
    trivial
  | transmit i index count beyond => exact fails.elim
  | timeout => exact fails.elim
  | readError i reachable =>
    rw [fails.2]
    trivial
  | receive i byte reachable =>
    obtain ⟨c,here,pending,failed⟩ := fails
    rcases receive_unreachable platform.order c byte reachable with same | lost
    · obtain ⟨heard,known,⟨after,read,_⟩ | ⟨message,after,next,read,_⟩⟩ :=
        told_receive platform results m start i c byte here pending (spoken c here) telling
      · simp only [handleRead,same,read,bind,Except.bind] at failed
        cases failed
      · have member : message ∈ script platform.order (results i) :=
          next.subset (List.mem_append_right heard (List.mem_singleton.mpr rfl))
        simp only [handleRead,same,read,bind,Except.bind] at failed
        rcases script_cases platform.order (results i) message member with ⟨result,inside,rfl⟩ | rfl
        · rcases bind_failed failed with failed | ⟨pushed,_,failed⟩
          · exact ResultProcessor.pushResult_outside platform.text _ _ _
              (types_known (results i) result inside) abort failed
          · cases failed
        · cases failed
    · simp only [handleRead,lost,bind,Except.bind] at failed
      cases failed
      trivial

/-! ### What is sent -/

/-- A connection carries the type, the profile of its node and, once the Start messages
have been sent, one Start message, and nothing else. -/
def Opened (workload : MasterWorkload) (dhtType : Bytes) (started : Bool) (i : Nat) (c : ControllerConnection) :
    Prop :=
  InOrder platform.order c ∧ ∃ p, workload.getNodeProfile i = some p ∧
    if started then ∃ addresses, c.sent = [.dhtType dhtType,profileMessage p,startMessage workload addresses i]
    else c.sent = [.dhtType dhtType,profileMessage p]

/-- What is known of the master in every run on intact connections. -/
structure Courteous (results : Nat → Results) (workload : MasterWorkload) (dhtType : Bytes)
    (start : ResultProcessor) (m : DhtperfMaster) : Prop where
  workload_eq : m.workload = workload
  type_eq : m.dhtType = dhtType
  telling : Telling platform results start m
  opened : Everywhere (Opened platform workload dhtType) m
  outside : ∀ abort, m.pc = .aborted abort → abort.Outside

theorem greet_opened (intact : platform.writes = .intact) (m : DhtperfMaster) (descriptor : Descriptor)
    (address : Bytes) (luck : AcceptLuck) (c : ControllerConnection)
    (ok : m.greet platform descriptor address luck = .ok c) :
    Opened platform m.workload m.dhtType false m.controllers.length c := by
  obtain ⟨first,p,second,written,given,written',rfl⟩ := greet_shape platform m descriptor address luck c ok
  refine ⟨?_,p,given,rfl⟩
  have begun : InOrder platform.order (greeted m descriptor address first luck) :=
    InOrder.send _ _ _ _ _ written (Or.inl rfl) (make_inOrder platform.order descriptor address)
  rw [intact]
  exact InOrder.send _ _ _ _ _ written' (immediate_ready _ _) begun

theorem step_courteous (intact : platform.writes = .intact) (results : Nat → Results) (workload : MasterWorkload)
    (dhtType : Bytes) (start : ResultProcessor) (before after : DhtperfMaster)
    (courteous : Courteous platform results workload dhtType start before)
    (step : StepIf platform (Spoken platform.order results) before after) :
    Courteous platform results workload dhtType start after := by
  obtain ⟨rfl,rfl,telling,opened,outside⟩ := courteous
  have later := step_telling platform results start before after telling step
  obtain ⟨action,spoken,acted⟩ := step
  obtain ⟨serving,moved⟩ := act_moves platform before after action acted
  have setup := step_setup platform before after ⟨action,acted⟩
  refine ⟨setup.1,setup.2,later,?_,?_⟩
  · refine everywhere_moves platform _ before after action moved opened ?readOnly ?transmitted ?greeted ?begun
    case readOnly =>
      rintro started i c header body reads taken ⟨inOrder,p,given,sent⟩
      exact ⟨⟨inOrder.fits,inOrder.split⟩,p,given,sent⟩
    case transmitted =>
      rintro i c d index count beyond sent ⟨inOrder,p,given,same⟩
      rw [intact] at sent
      have next := inOrder.transmit_intact platform.order c d index count beyond sent
      obtain ⟨writes,received,rfl⟩ := transmit_shape _ c d index count beyond sent
      exact ⟨next,p,given,same⟩
    case greeted =>
      intro descriptor address luck c _ pending welcome
      rw [(telling.counts.quiet pending).1]
      exact greet_opened platform intact before descriptor address luck c welcome
    case begun =>
      rintro descriptor address luck new i c bits _ pending _ welcome _ written ⟨inOrder,p,given,sent⟩
      rw [(telling.counts.quiet pending).1] at sent
      rw [intact]
      refine ⟨inOrder.send _ c _ bits _ written (immediate_ready c _),p,given,
        (before.controllers ++ [new]).map (·.address),?_⟩
      change c.sent ++ [_] = _
      rw [sent]
      rfl
  · intro abort aborted
    exact told_outside platform results start before action telling spoken abort
      (moves_aborted platform before after action moved serving abort aborted)

end DhtperfMaster
end Dhtperf
