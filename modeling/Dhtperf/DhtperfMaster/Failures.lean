import Dhtperf.DhtperfMaster.Reports

/-! A broken connection seen from the master. Where it shows up as a failed read it costs
one controller; where it shows up as a failed write or a failed lookup it costs the
whole process. -/
namespace Dhtperf
open Library Relation ControllerConnection DhtperfController

/-! ### Results that can be read -/

def DhtNode.Measured (time duration : Int → Prop) (node : DhtNode) : Prop :=
  ∀ latency ∈ [node.joinLatency,node.leaveLatency,node.putLatency,node.getLatency],
    ∀ entry ∈ latency.measurements.toList, time entry.1 ∧ duration entry.2

instance (time duration : Int → Prop) [DecidablePred time] [DecidablePred duration] (node : DhtNode) :
    Decidable (node.Measured time duration) := by
  unfold DhtNode.Measured
  infer_instance

namespace ResultProcessor
variable (text : PosixTime) {time duration : Int → Prop} (inverse : text.Inverse time duration)
include inverse

theorem pushLatency_ok (results : ResultProcessor) (operation : DhtOperation) (latency : NodeLatency Rat)
    (range : ∀ entry ∈ latency.measurements.toList, time entry.1 ∧ duration entry.2) :
    ∃ after, results.pushLatency text operation (latency.toString text) = .ok after := by
  unfold pushLatency
  rw [NodeLatency.ofString_toString text inverse latency range]
  exact ⟨_,rfl⟩

theorem pushResult_ok (results : ResultProcessor) (node : DhtNode) (measured : node.Measured time duration)
    (result : Bytes × Bytes) (member : result ∈ reportResults (node.getResults text)) :
    ∃ after, results.pushResult text result.1 result.2 = .ok after := by
  have latency := fun (operation : DhtOperation) (latency : NodeLatency Rat) inside =>
    pushLatency_ok text inverse results operation latency (measured latency inside)
  simp only [reportResults,List.mem_cons,List.not_mem_nil,or_false] at member
  rcases member with rfl | rfl | rfl | rfl | rfl | rfl
  · exact latency .join node.joinLatency (by simp)
  · exact latency .leave node.leaveLatency (by simp)
  · exact latency .get node.getLatency (by simp)
  · exact latency .put node.putLatency (by simp)
  · exact ⟨_,rfl⟩
  · exact ⟨_,rfl⟩

end ResultProcessor

/-! ### Steps that do not end the process -/

namespace DhtperfMaster
variable (platform : Platform)

def Sendable (order : ByteOrder) (message : Message) : Prop := (message.body order).length < 2^32

instance (order : ByteOrder) (message : Message) : Decidable (Sendable order message) :=
  inferInstanceAs (Decidable (_ < _))

def Short (address : Bytes) : Prop := address.length + 8 < 2^32

instance (address : Bytes) : Decidable (Short address) := inferInstanceAs (Decidable (_ < _))

/-- No write and no accept fails, every address can be looked up, and what is sent can be
put into a message. -/
def Gentle (order : ByteOrder) (m : DhtperfMaster) : Action → Prop
  | .accept _ address luck => (∀ i ≤ m.controllers.length, luck.reachable i = true) ∧ Short address ∧
      Sendable order (.dhtType m.dhtType) ∧
      ∀ p ∈ m.workload.getNodeProfile m.controllers.length, Sendable order (profileMessage p)
  | .acceptError => False
  | .receive _ _ reachable => reachable = true
  | .readError _ reachable => reachable = true
  | .writeError _ => False
  | .transmit _ _ _ _ => True
  | .timeout => True

instance (order : ByteOrder) (m : DhtperfMaster) (action : Action) : Decidable (Gentle order m action) :=
  match action with
  | .accept _ _ _ => by dsimp only [Gentle]; infer_instance
  | .acceptError => .isFalse id
  | .receive _ _ _ => by dsimp only [Gentle]; infer_instance
  | .readError _ _ => by dsimp only [Gentle]; infer_instance
  | .writeError _ => .isFalse id
  | .transmit _ _ _ _ => .isTrue trivial
  | .timeout => .isTrue trivial

theorem sendMessage_ok (c : ControllerConnection) (message : Message) (atOnce : Nat)
    (fits : Sendable platform.order message) :
    ∃ after, c.sendMessage platform.order platform.writes message atOnce = .ok after := by
  unfold sendMessage
  rw [show message.toBits platform.order = .ok (message.bits platform.order) from if_pos fits]
  exact ⟨_,rfl⟩

theorem sendStartMessages_ok (luck : AcceptLuck) (message : Nat → Message)
    (fits : ∀ k, Sendable platform.order (message k)) (i : Nat) (cs : List ControllerConnection)
    (first : luck.reachable 0 = true) (reachable : ∀ k < cs.length, luck.reachable (i + k) = true) :
    ∃ after, sendStartMessages platform luck message i cs = .ok after := by
  induction cs generalizing i with
  | nil => exact ⟨[],rfl⟩
  | cons c cs ih =>
    obtain ⟨d,sent⟩ := sendMessage_ok platform c (message i) (luck.startAtOnce i) (fits i)
    obtain ⟨rest,others⟩ := ih (i+1) fun k bound => by
      rw [show i + 1 + k = i + (k + 1) by omega]
      exact reachable (k+1) (by simpa using bound)
    have here : luck.reachable i = true := reachable 0 (by simp)
    unfold sendStartMessages
    simp [MasterWorkload.getNodeEntryPointHost,first,here,sent,others,bind,Except.bind,pure,Except.pure]

theorem startMessage_sendable (workload : MasterWorkload) (addresses : List Bytes) (i : Nat)
    (short : ∀ address ∈ addresses, Short address) :
    Sendable platform.order (startMessage workload addresses i) := by
  have empty : Short [] := by decide
  have known : Short (addresses.getD 0 []) := by
    cases addresses with
    | nil => exact empty
    | cons address rest => exact short address (by simp)
  have host : Short (if i = 0 then [] else addresses.getD (MasterWorkload.getNodeEntryPointHost i) []) := by
    split
    · exact empty
    · exact known
  unfold Short at host
  simp only [Sendable,startMessage,Message.body,List.length_append,ByteOrder.write_length]
  omega

theorem handleAccept_ok (m : DhtperfMaster) (descriptor : Descriptor) (address : Bytes) (luck : AcceptLuck)
    (valid : m.workload.valid = true) (counts : Counts m) (pending : 0 < m.accepts)
    (short : ∀ c ∈ m.controllers, Short c.address)
    (gentle : Gentle platform.order m (.accept descriptor address luck)) :
    ∃ after, m.handleAccept platform descriptor address luck = .ok after := by
  obtain ⟨reachable,known,type,profile⟩ := gentle
  have waiting : m.controllers.length < m.workload.nodes.toNat := by
    have size := counts.size
    rw [(counts.quiet pending).1] at size
    exact size.1
  obtain ⟨p,given⟩ := MasterWorkload.valid_profile m.workload valid m.controllers.length waiting
  obtain ⟨b,first⟩ := sendMessage_ok platform (.make descriptor address) (.dhtType m.dhtType) luck.dhtTypeAtOnce type
  obtain ⟨c,second⟩ := sendMessage_ok platform b (profileMessage p) luck.profileAtOnce (profile p given)
  have greeted : m.greet platform descriptor address luck = .ok c := by
    unfold greet
    simp [reachable m.controllers.length (Nat.le_refl _),first,given,second,bind,Except.bind]
  have addressed := (greet_idle platform m descriptor address luck c greeted).2.1
  have allShort : ∀ a ∈ (m.controllers ++ [c]).map (·.address), Short a := by
    intro a member
    obtain ⟨d,inside,rfl⟩ := List.mem_map.mp member
    rcases List.mem_append.mp inside with old | new
    · exact short d old
    · rw [List.mem_singleton.mp new,addressed]
      exact known
  obtain ⟨controllers,sent⟩ := sendStartMessages_ok platform luck
    (startMessage m.workload ((m.controllers ++ [c]).map (·.address)))
    (fun k => startMessage_sendable platform m.workload _ k allShort) 0 (m.controllers ++ [c])
    (reachable 0 (Nat.zero_le _)) fun k bound => reachable _ (by simp at bound; omega)
  unfold handleAccept
  simp only [greeted,bind,Except.bind]
  split
  · exact ⟨_,rfl⟩
  · rw [sent]
    exact ⟨_,rfl⟩

/-! ### Runs -/

section
variable (nodes : Nat → DhtNode) (time duration : Int → Prop)

def resultsOf (i : Nat) : Results := (nodes i).getResults platform.text

/-- Everything that is known in a gentle run. -/
structure Healthy (workload : MasterWorkload) (start : ResultProcessor) (m : DhtperfMaster) : Prop where
  same : m.workload = workload
  telling : Telling platform (resultsOf platform nodes) start m
  short : Everywhere (fun _ _ c => Short c.address) m
  alive : ∀ abort, m.pc ≠ .aborted abort

variable (inverse : platform.text.Inverse time duration) (measured : ∀ i, (nodes i).Measured time duration)
include inverse measured

theorem gentle_survives (workload : MasterWorkload) (valid : workload.valid = true) (start : ResultProcessor)
    (m : DhtperfMaster) (healthy : Healthy platform nodes workload start m) (action : Action)
    (spoken : Spoken platform.order (resultsOf platform nodes) m action)
    (gentle : Gentle platform.order m action) (abort : Abort) : ¬Fails platform m abort action := by
  obtain ⟨same,telling,short,_⟩ := healthy
  cases action with
  | accept descriptor address luck =>
    rintro ⟨pending,failed⟩
    obtain ⟨after,ok⟩ := handleAccept_ok platform m descriptor address luck (same ▸ valid) telling.counts pending
      (fun c member => (List.mem_iff_getElem?.mp member).elim fun i found => short i c found) gentle
    cases failed.symm.trans ok
  | acceptError => exact gentle.elim
  | writeError i => exact gentle.elim
  | transmit i index count beyond => exact False.elim
  | timeout => exact False.elim
  | readError i reachable =>
    rintro ⟨unknown,_⟩
    cases unknown.symm.trans gentle
  | receive i byte reachable =>
    rintro ⟨c,here,pending,failed⟩
    cases gentle
    obtain ⟨heard,known,⟨after,read,_⟩ | ⟨message,after,next,read,_⟩⟩ :=
      told_receive platform (resultsOf platform nodes) m start i c byte here pending (spoken c here) telling
    · simp only [handleRead,read,bind,Except.bind] at failed
      cases failed
    · have member : message ∈ script platform.order (resultsOf platform nodes i) :=
        next.subset (List.mem_append_right heard (List.mem_singleton.mpr rfl))
      simp only [handleRead,read,bind,Except.bind] at failed
      rcases script_cases platform.order (resultsOf platform nodes i) message member with ⟨result,inside,rfl⟩ | rfl
      · obtain ⟨pushed,ok⟩ := ResultProcessor.pushResult_ok platform.text inverse m.resultProcessor (nodes i)
          (measured i) result inside
        simp only [report,handleMessage,handleReportMessage,ok,bind,Except.bind] at failed
        cases failed
      · cases failed

theorem step_healthy (workload : MasterWorkload) (valid : workload.valid = true) (start : ResultProcessor)
    (before after : DhtperfMaster) (healthy : Healthy platform nodes workload start before)
    (step : StepIf platform (fun m action => Spoken platform.order (resultsOf platform nodes) m action ∧
      Gentle platform.order m action) before after) : Healthy platform nodes workload start after := by
  obtain ⟨action,⟨spoken,gentle⟩,acted⟩ := step
  obtain ⟨serving,moved⟩ := act_moves platform before after action acted
  have survives := gentle_survives platform nodes time duration inverse measured workload valid start before healthy
    action spoken gentle
  refine ⟨(step_setup platform before after ⟨action,acted⟩).1.trans healthy.same,
    step_telling platform _ start before after healthy.telling ⟨action,spoken,acted⟩,?_,?_⟩
  · refine everywhere_moves platform _ before after action moved healthy.short (fun _ _ _ _ _ _ _ known => known)
      ?_ ?_ fun _ _ _ _ _ _ _ _ _ _ _ _ _ known => known
    · intro i c d index count beyond sent known
      obtain ⟨writes,received,rfl⟩ := transmit_shape _ c d index count beyond sent
      exact known
    · intro descriptor address luck c accepting _ welcome
      subst accepting
      rw [(greet_idle platform before descriptor address luck c welcome).2.1]
      exact gentle.2.1
  · exact fun abort aborted => survives abort (moves_aborted platform before after action moved serving abort aborted)

omit inverse measured

/-- The reports of a controller that have arrived completely have been aggregated. -/
def UpToDate (m : DhtperfMaster) (i : Nat) (c : ControllerConnection) : Prop :=
  ∃ heard, heard <+: script platform.order (resultsOf platform nodes i) ∧
    m.reportsFrom i = heard.filterMap reported ∧ heard.flatMap (Message.bits platform.order) <+: c.taken ∧
    ∀ message, heard ++ [message] <+: script platform.order (resultsOf platform nodes i) →
      c.taken.length < ((heard ++ [message]).flatMap (Message.bits platform.order)).length

/-- The broken connection of a controller is noticed by the read it waits for. The controller
is counted as failed, which it was not before, and nothing else changes. -/
def BreakCounted (m : DhtperfMaster) (i : Nat) : Prop :=
  i ∉ m.failedLog ∧ ∃ after, act platform m (.readError i true) = some after ∧
    (∀ abort, after.pc ≠ .aborted abort) ∧ after.failedLog = m.failedLog ++ [i] ∧
    after.failedControllers.toNat = m.failedControllers.toNat + 1 ∧ after.reportLog = m.reportLog ∧
    after.resultProcessor = m.resultProcessor ∧ ∀ k ≠ i, after.controllers[k]? = m.controllers[k]?

theorem break_counted (m : DhtperfMaster) (i : Nat) (c : ControllerConnection) (counts : Counts m)
    (here : m.controllers[i]? = some c) (serving : m.pc = .serving) (pending : c.reads ≠ []) :
    BreakCounted platform m i := by
  have absent := (counts.awaited i c here pending).2
  have acted : act platform m (.readError i true) =
      some ((m.update i {c with reads := c.reads.tail}).handleDisconnection i) := by
    unfold act
    rw [if_neg (not_not.mpr serving)]
    simp only [here,if_pos pending]
    rfl
  have later := step_counts platform m _ counts ⟨_,acted⟩
  refine ⟨fun broken => absent (counts.among.subset broken),_,acted,fun abort aborted => ?_,rfl,?_,rfl,rfl,?_⟩
  · simp only [handleDisconnection,controllerFinished,update,serving] at aborted
    split at aborted
    · cases aborted
    · cases aborted
  · rw [later.failed,counts.failed]
    exact List.length_append
  · intro k other
    simp only [handleDisconnection,controllerFinished,update]
    exact List.getElem?_set_ne (Ne.symm other)

include inverse measured

/-- As long as broken connections show up as failed reads only, the master keeps running
whatever the moment. Each of them is counted as failed exactly once, and the reports of the
other controllers are aggregated as they arrive. -/
theorem breaks_tolerated (file dhtType : Bytes) (given : UInt32) (workload : MasterWorkload)
    (loaded : MasterWorkload.loadConfig file given = .ok (some workload)) (lowLatency : Bool)
    (acceptor : Descriptor) (m : DhtperfMaster)
    (run : ReflTransGen (StepIf platform fun m action =>
      Spoken platform.order (resultsOf platform nodes) m action ∧ Gentle platform.order m action)
      (.make workload dhtType lowLatency acceptor) m) :
    (∀ abort, m.pc ≠ .aborted abort) ∧
      m.failedLog.Nodup ∧ m.failedControllers.toNat = m.failedLog.length ∧
      (∀ (i : Nat) (c : ControllerConnection), m.controllers[i]? = some c → m.pc = .serving → c.reads ≠ [] →
        BreakCounted platform m i) ∧
      (∀ (i : Nat) (c : ControllerConnection), m.controllers[i]? = some c → m.startMessagesSent = true →
        i ∉ m.finishedLog → c.reads ≠ []) ∧
      (∀ (i : Nat) (c : ControllerConnection), m.controllers[i]? = some c → UpToDate platform nodes m i c) ∧
      (∀ i ∈ m.finishedLog, i ∉ m.failedLog → m.reportsFrom i = reportResults (resultsOf platform nodes i)) ∧
      foldReports platform.text (.make dhtType lowLatency) m.reportLog = .ok m.resultProcessor := by
  have valid := MasterWorkload.loadConfig_valid file given workload loaded
  have positive := MasterWorkload.valid_nodes workload valid
  have healthy : Healthy platform nodes workload (.make dhtType lowLatency) m := by
    refine run_invariant run ⟨rfl,?_,?_,?_⟩ fun before after known step =>
      step_healthy platform nodes time duration inverse measured workload valid _ before after known step
    · exact make_telling platform _ workload dhtType lowLatency acceptor positive
    · exact fun i c found => by simp [make] at found
    · intro abort aborted
      cases aborted
  obtain ⟨_,telling,_,alive⟩ := healthy
  have counts := telling.counts
  refine ⟨alive,counts.distinct.sublist counts.among,counts.failed,?_,?_,?_,?_,telling.folded⟩
  · exact fun i c here serving pending => break_counted platform m i c counts here serving pending
  · intro i c here sent absent idle
    have each := counts.each i c here
    rw [if_pos sent,idle,List.count_eq_zero_of_not_mem absent] at each
    cases each
  · intro i c here
    obtain ⟨heard,known⟩ := telling.each i c here
    exact ⟨heard,known.known,known.reports,known.arrived⟩
  · intro i member fine
    exact telling.finished_reports platform _ _ m i member fine

end

/-- The first of two connections breaks before anything is reported; the second node
reports to the end. -/
theorem first_of_two_breaks : ∃ m : DhtperfMaster, m.failedLog = [0] ∧ m.finishedLog = [0,1] ∧
    (∀ abort, m.pc ≠ .aborted abort) ∧
    m.reportsFrom 1 = reportResults (DhtNode.make.getResults NodeLatency.oneDay) := by
  obtain ⟨m,run,shape⟩ := perform_run (act ⟨.little,NodeLatency.oneDay,.shared⟩)
    (fun m action => Spoken .little (fun _ => DhtNode.make.getResults NodeLatency.oneDay) m action ∧
      Gentle .little m action)
    ([.accept 4 (ascii "host") smooth,.accept 5 (ascii "host") smooth,.readError 0 true] ++
      (stream .little (fun _ => DhtNode.make.getResults NodeLatency.oneDay) 1).map fun byte => .receive 1 byte true)
    (make pairWorkload (ascii "dummy") true 3)
    (fun m => m.failedLog = [0] ∧ m.finishedLog = [0,1]) (by decide +kernel)
  obtain ⟨failed,finished⟩ := of_decide_eq_true shape
  have fine := breaks_tolerated ⟨.little,NodeLatency.oneDay,.shared⟩ (fun _ => DhtNode.make) (· ∈ [5,7])
    (· ∈ [100,2000000]) NodeLatency.oneDay_inverse (fun _ => by decide) pairFile (ascii "dummy") 0 pairWorkload rfl
    true 3 m run
  exact ⟨m,failed,finished,fine.1,fine.2.2.2.2.2.2.1 1 (by simp [finished]) (by simp [failed])⟩

/-- The connection breaks while its first messages are still being written and the other
controller is awaited: the write fails and the process ends. -/
theorem failed_write_aborts : ∃ m, ReflTransGen (StepIf ⟨.little,NodeLatency.oneDay,.shared⟩
      (Spoken .little fun _ => DhtNode.make.getResults NodeLatency.oneDay))
      (make pairWorkload (ascii "dummy") true 3) m ∧ m.pc = .aborted .write := by
  obtain ⟨m,run,shape⟩ := perform_run (act ⟨.little,NodeLatency.oneDay,.shared⟩)
    (Spoken .little fun _ => DhtNode.make.getResults NodeLatency.oneDay)
    [.accept 4 (ascii "host") ⟨fun _ => true,0,0,fun _ => 0⟩,.writeError 0]
    (make pairWorkload (ascii "dummy") true 3) (fun m => m.pc = .aborted .write) (by decide)
  exact ⟨m,run,of_decide_eq_true shape⟩

end DhtperfMaster
end Dhtperf
