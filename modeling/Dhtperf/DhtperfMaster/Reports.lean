import Dhtperf.DhtperfMaster.Counts
import Dhtperf.ControllerConnection.Framing
import Dhtperf.DhtperfController.Reporting

/-! What the master has heard from controllers that run the controller program. Whatever
the interleaving, the reports of a controller are aggregated once, in the order in which
they were sent, each with its last byte. -/
namespace Dhtperf
open Library Relation ControllerConnection DhtperfController

namespace DhtperfMaster

def reportsFrom (m : DhtperfMaster) (i : Nat) : List (Bytes × Bytes) :=
  m.reportLog.filterMap fun entry => if entry.1 = i then some entry.2 else none

def foldReports (text : PosixTime) (start : ResultProcessor) (log : List (Nat × Bytes × Bytes)) :
    Except Abort ResultProcessor :=
  log.foldlM (fun results entry => results.pushResult text entry.2.1 entry.2.2) start

def stream (order : ByteOrder) (results : Nat → Results) (i : Nat) : Bytes :=
  (script order (results i)).flatMap (Message.bits order)

/-- Bytes arrive as the controllers have written them. -/
def Spoken (order : ByteOrder) (results : Nat → Results) (m : DhtperfMaster) : Action → Prop
  | .receive i byte _ => ∀ c ∈ m.controllers[i]?, (stream order results i)[c.taken.length]? = some byte
  | _ => True

instance (order : ByteOrder) (results : Nat → Results) (m : DhtperfMaster) (action : Action) :
    Decidable (Spoken order results m action) := by
  cases action <;> dsimp only [Spoken] <;> infer_instance

variable (platform : Platform) (results : Nat → Results)

structure Heard (m : DhtperfMaster) (i : Nat) (c : ControllerConnection) (heard : List Message) : Prop where
  known : heard <+: script platform.order (results i)
  reports : m.reportsFrom i = heard.filterMap reported
  silent : m.startMessagesSent = false → heard = [] ∧ c.taken = []
  hearing : m.startMessagesSent = true → i ∉ m.finishedLog →
    Hearing platform.order (script platform.order (results i)) heard c
  arrived : heard.flatMap (Message.bits platform.order) <+: c.taken ∧
    ∀ message, heard ++ [message] <+: script platform.order (results i) →
      c.taken.length < ((heard ++ [message]).flatMap (Message.bits platform.order)).length
  done : i ∈ m.finishedLog → i ∉ m.failedLog → heard = messages (results i)

structure Telling (start : ResultProcessor) (m : DhtperfMaster) : Prop where
  counts : Counts m
  quiet : m.startMessagesSent = false → m.reportLog = []
  each : ∀ (i : Nat) (c : ControllerConnection), m.controllers[i]? = some c →
    ∃ heard, Heard platform results m i c heard
  folded : foldReports platform.text start m.reportLog = .ok m.resultProcessor

theorem Heard.frame (m after : DhtperfMaster) (i : Nat) (c : ControllerConnection) (heard : List Message)
    (reports : after.reportsFrom i = m.reportsFrom i) (started : after.startMessagesSent = m.startMessagesSent)
    (finished : i ∈ after.finishedLog ↔ i ∈ m.finishedLog) (failed : i ∈ after.failedLog ↔ i ∈ m.failedLog)
    (known : Heard platform results m i c heard) : Heard platform results after i c heard where
  known := known.known
  reports := reports.trans known.reports
  silent := fun waiting => known.silent (started.symm.trans waiting)
  hearing := fun sent absent => known.hearing (started.symm.trans sent) fun member => absent (finished.mpr member)
  arrived := known.arrived
  done := fun member absent => known.done (finished.mp member) fun broken => absent (failed.mpr broken)

theorem Heard.fresh (m : DhtperfMaster) (i : Nat) (c : ControllerConnection) (quiet : m.reportLog = [])
    (waiting : m.startMessagesSent = false) (none : m.finishedLog = []) (taken : c.taken = []) :
    Heard platform results m i c [] where
  known := List.nil_prefix
  reports := by simp [reportsFrom,quiet]
  silent := fun _ => ⟨rfl,taken⟩
  hearing := fun sent => absurd (waiting.symm.trans sent) Bool.false_ne_true
  arrived := by
    refine ⟨List.nil_prefix,fun message _ => ?_⟩
    rw [taken,List.nil_append,List.flatMap_singleton]
    exact List.length_pos_iff.mpr (Message.bits_ne_nil _ message)
  done := fun member => by simp [none] at member

theorem Heard.goOn (m : DhtperfMaster) (i : Nat) (c : ControllerConnection) (heard : List Message)
    (known : heard <+: script platform.order (results i)) (reports : m.reportsFrom i = heard.filterMap reported)
    (sent : m.startMessagesSent = true) (awaited : i ∉ m.finishedLog)
    (hearing : Hearing platform.order (script platform.order (results i)) heard c) :
    Heard platform results m i c heard where
  known := known
  reports := reports
  silent := fun waiting => absurd (waiting.symm.trans sent) Bool.false_ne_true
  hearing := fun _ _ => hearing
  arrived := hearing.arrived platform.order _ heard c
  done := fun member => absurd member awaited

theorem each_update (m after : DhtperfMaster) (i : Nat) (d : ControllerConnection)
    (listed : after.controllers = (m.update i d).controllers)
    (started : after.startMessagesSent = m.startMessagesSent)
    (reports : ∀ k, k ≠ i → after.reportsFrom k = m.reportsFrom k)
    (finished : ∀ k, k ≠ i → (k ∈ after.finishedLog ↔ k ∈ m.finishedLog))
    (failed : ∀ k, k ≠ i → (k ∈ after.failedLog ↔ k ∈ m.failedLog))
    (each : ∀ (k : Nat) (c : ControllerConnection), m.controllers[k]? = some c →
      ∃ heard, Heard platform results m k c heard)
    (here : ∃ heard, Heard platform results after i d heard) :
    ∀ (k : Nat) (c : ControllerConnection), after.controllers[k]? = some c →
      ∃ heard, Heard platform results after k c heard := by
  intro k c found
  rw [listed] at found
  rcases getElem?_update m i k d c found with ⟨rfl,rfl⟩ | ⟨other,found⟩
  · exact here
  · obtain ⟨heard,known⟩ := each k c found
    exact ⟨heard,known.frame platform results m after k c heard (reports k other) started (finished k other)
      (failed k other)⟩

theorem reportsFrom_append (m : DhtperfMaster) (i k : Nat) (report : Bytes × Bytes) :
    ({m with reportLog := m.reportLog ++ [(i,report)]} : DhtperfMaster).reportsFrom k =
      m.reportsFrom k ++ if i = k then [report] else [] := by
  simp only [reportsFrom,List.filterMap_append]
  by_cases same : i = k
  · simp [same]
  · simp [same]

theorem foldReports_append (text : PosixTime) (start before after : ResultProcessor)
    (log : List (Nat × Bytes × Bytes)) (entry : Nat × Bytes × Bytes)
    (folded : foldReports text start log = .ok before)
    (pushed : before.pushResult text entry.2.1 entry.2.2 = .ok after) :
    foldReports text start (log ++ [entry]) = .ok after := by
  unfold foldReports at folded ⊢
  rw [List.foldlM_append,folded]
  simp only [bind,Except.bind,List.foldlM_cons,List.foldlM_nil,pushed]
  rfl

theorem mem_counted (log : List Nat) (i k : Nat) (other : k ≠ i) : k ∈ log ++ [i] ↔ k ∈ log := by
  rw [List.mem_append,List.mem_singleton]
  exact or_iff_left other

theorem told_receive (m : DhtperfMaster) (start : ResultProcessor) (i : Nat) (c : ControllerConnection)
    (byte : UInt8) (here : m.controllers[i]? = some c) (pending : c.reads ≠ [])
    (spoken : (stream platform.order results i)[c.taken.length]? = some byte)
    (telling : Telling platform results start m) :
    ∃ heard, Heard platform results m i c heard ∧
      ((∃ after, c.receive platform.order true byte = .ok (after,none) ∧
          Hearing platform.order (script platform.order (results i)) heard after) ∨
        ∃ message after, heard ++ [message] <+: script platform.order (results i) ∧
          c.receive platform.order true byte = .ok (after,some message) ∧ after.reads = [] ∧
          after.taken = (heard ++ [message]).flatMap (Message.bits platform.order)) := by
  obtain ⟨sent,absent⟩ := telling.counts.awaited i c here pending
  obtain ⟨heard,known⟩ := telling.each i c here
  exact ⟨heard,known,receive_hearing platform.order _ heard c byte (script_fits platform.order (results i))
    (script_plain platform.order (results i)) (script_sized platform.order (results i)) known.known
    (known.hearing sent absent) spoken⟩

theorem received_reachable (c : ControllerConnection) (byte : UInt8) (reachable : Bool)
    (result : ControllerConnection × Option Message)
    (read : c.receive platform.order reachable byte = .ok result) :
    c.receive platform.order true byte = .ok result := by
  rcases receive_unreachable platform.order c byte reachable with same | failed
  · rw [← same]
    exact read
  · rw [failed] at read
    cases read

theorem Telling.accepted (start : ResultProcessor) (before : DhtperfMaster) (c : ControllerConnection)
    (counts : Counts {before with controllers := before.controllers ++ [c]})
    (waiting : before.startMessagesSent = false) (none : before.finishedLog = []) (untaken : c.taken = [])
    (telling : Telling platform results start before) :
    Telling platform results start {before with controllers := before.controllers ++ [c]} := by
  refine ⟨counts,telling.quiet,fun k e found => ?_,telling.folded⟩
  rw [List.getElem?_append] at found
  split at found
  next =>
    obtain ⟨heard,known⟩ := telling.each k e found
    exact ⟨heard,{known with}⟩
  next =>
    rw [List.getElem?_singleton] at found
    split at found
    · cases found
      exact ⟨[],Heard.fresh platform results _ k c (telling.quiet waiting) waiting none untaken⟩
    · cases found

theorem Telling.started (start : ResultProcessor) (before : DhtperfMaster) (luck : AcceptLuck) (message : Nat → Message)
    (new : ControllerConnection) (controllers : List ControllerConnection) (accepts : Nat)
    (counts : Counts {before with controllers := controllers, accepts := accepts, startMessagesSent := true})
    (waiting : before.startMessagesSent = false) (none : before.finishedLog = []) (untaken : new.taken = [])
    (idle : ∀ (k : Nat) (c : ControllerConnection), (before.controllers ++ [new])[k]? = some c → c.reads = [])
    (sent : sendStartMessages platform luck message 0 (before.controllers ++ [new]) = .ok controllers)
    (telling : Telling platform results start before) : Telling platform results start
      {before with controllers := controllers, accepts := accepts, startMessagesSent := true} := by
  refine ⟨counts,fun silent => absurd silent (by simp),fun k e found => ?_,telling.folded⟩
  obtain ⟨c,bits,old,_,rfl⟩ := (sendStartMessages_each platform luck _ 0 _ controllers sent).2 k e found
  have nothing : c.taken = [] := by
    rcases List.mem_append.mp (List.mem_of_getElem? old) with earlier | same
    · obtain ⟨j,place⟩ := List.mem_iff_getElem?.mp earlier
      obtain ⟨heard,known⟩ := telling.each j c place
      exact (known.silent waiting).2
    · rw [List.mem_singleton.mp same]
      exact untaken
  refine ⟨[],Heard.goOn platform results _ k _ [] List.nil_prefix ?_ rfl ?_ (.between ?_ nothing)⟩
  · simp [reportsFrom,telling.quiet waiting]
  · simp [none]
  · simp [asyncWaitForMessage,sentWith,idle k c old]

section Received
variable (before : DhtperfMaster) (start : ResultProcessor) (i : Nat) (c d : ControllerConnection) (byte : UInt8)

theorem reading_heard (here : before.controllers[i]? = some c) (pending : c.reads ≠ [])
    (spoken : (stream platform.order results i)[c.taken.length]? = some byte)
    (read : c.receive platform.order true byte = .ok (d,none)) (telling : Telling platform results start before) :
    ∃ heard, Heard platform results (before.update i d) i d heard := by
  obtain ⟨heard,known,⟨after,same,hearing⟩ | ⟨message,after,_,same,_⟩⟩ :=
    told_receive platform results before start i c byte here pending spoken telling
  · cases read.symm.trans same
    obtain ⟨sent,absent⟩ := telling.counts.awaited i c here pending
    exact ⟨heard,Heard.goOn platform results _ i d heard known.known known.reports sent absent hearing⟩
  · cases read.symm.trans same

theorem whole_heard (message : Message) (here : before.controllers[i]? = some c) (pending : c.reads ≠ [])
    (spoken : (stream platform.order results i)[c.taken.length]? = some byte)
    (read : c.receive platform.order true byte = .ok (d,some message))
    (telling : Telling platform results start before) :
    ∃ heard, Heard platform results before i c heard ∧ heard ++ [message] <+: script platform.order (results i) ∧
      d.reads = [] ∧ d.taken = (heard ++ [message]).flatMap (Message.bits platform.order) := by
  obtain ⟨heard,known,⟨after,same,_⟩ | ⟨told,after,next,same,idle,taken⟩⟩ :=
    told_receive platform results before start i c byte here pending spoken telling
  · cases read.symm.trans same
  · cases read.symm.trans same
    exact ⟨heard,known,next,idle,taken⟩

theorem reported_heard (type value : Bytes) (pushed : ResultProcessor) (here : before.controllers[i]? = some c)
    (pending : c.reads ≠ []) (spoken : (stream platform.order results i)[c.taken.length]? = some byte)
    (read : c.receive platform.order true byte = .ok (d,some (.report type value)))
    (telling : Telling platform results start before) :
    ∃ heard, Heard platform results (({before with
      resultProcessor := pushed
      reportLog := before.reportLog ++ [(i,type,value)]} : DhtperfMaster).update i d.asyncWaitForMessage) i
        d.asyncWaitForMessage heard := by
  obtain ⟨heard,known,next,idle,taken⟩ :=
    whole_heard platform results before start i c d byte _ here pending spoken read telling
  obtain ⟨sent,absent⟩ := telling.counts.awaited i c here pending
  refine ⟨_,Heard.goOn platform results _ i _ _ next ?_ sent absent (.between ?_ taken)⟩
  · apply (reportsFrom_append before i i (type,value)).trans
    rw [if_pos rfl,known.reports,List.filterMap_append]
    rfl
  · simp [asyncWaitForMessage,idle]

theorem finished_heard (here : before.controllers[i]? = some c) (pending : c.reads ≠ [])
    (spoken : (stream platform.order results i)[c.taken.length]? = some byte)
    (read : c.receive platform.order true byte = .ok (d,some .finish))
    (telling : Telling platform results start before) :
    ∃ heard, Heard platform results ((before.update i d).handleFinishMessage i) i d heard := by
  obtain ⟨heard,known,next,idle,taken⟩ :=
    whole_heard platform results before start i c d byte _ here pending spoken read telling
  obtain ⟨sent,absent⟩ := telling.counts.awaited i c here pending
  have complete := finish_last platform.order (results i) heard next
  have whole := arrived_whole platform.order _ d taken
  refine ⟨heard ++ [.finish],next,?_,?_,?_,⟨whole.1,fun message _ => whole.2 message⟩,?_⟩
  · change before.reportsFrom i = _
    rw [known.reports,List.filterMap_append]
    exact (List.append_nil _).symm
  · exact fun waiting => absurd (waiting.symm.trans sent) Bool.false_ne_true
  · exact fun _ awaited => absurd (List.mem_append_right _ (List.mem_singleton.mpr rfl)) awaited
  · intro _ _
    rw [complete,messages]

theorem disconnected_heard (here : before.controllers[i]? = some c) (pending : c.reads ≠ [])
    (telling : Telling platform results start before) :
    ∃ heard, Heard platform results ((before.update i {c with reads := c.reads.tail}).handleDisconnection i) i
      {c with reads := c.reads.tail} heard := by
  obtain ⟨sent,absent⟩ := telling.counts.awaited i c here pending
  obtain ⟨heard,known⟩ := telling.each i c here
  have counted : i ∈ before.finishedLog ++ [i] := List.mem_append_right _ (List.mem_singleton.mpr rfl)
  have broken : i ∈ before.failedLog ++ [i] := List.mem_append_right _ (List.mem_singleton.mpr rfl)
  refine ⟨heard,known.known,known.reports,?_,?_,known.arrived,?_⟩
  · exact fun waiting => absurd (waiting.symm.trans sent) Bool.false_ne_true
  · exact fun _ awaited => absurd counted awaited
  · exact fun _ fine => absurd broken fine

end Received

/-- The rest of a message, the whole of it, or nothing: the account stays right. -/
theorem step_telling (start : ResultProcessor) (before after : DhtperfMaster)
    (telling : Telling platform results start before)
    (step : StepIf platform (Spoken platform.order results) before after) :
    Telling platform results start after := by
  obtain ⟨action,spoken,acted⟩ := step
  have counts := step_counts platform before after telling.counts ⟨action,acted⟩
  obtain ⟨serving,moved⟩ := act_moves platform before after action acted
  cases moved with
  | aborted _ abort fails => exact ⟨counts,telling.quiet,fun i c here => by
      obtain ⟨heard,known⟩ := telling.each i c here
      exact ⟨heard,{known with}⟩,telling.folded⟩
  | timedOut _ => exact ⟨counts,telling.quiet,fun i c here => by
      obtain ⟨heard,known⟩ := telling.each i c here
      exact ⟨heard,{known with}⟩,telling.folded⟩
  | accepted descriptor address luck c pending fresh welcome more =>
    obtain ⟨waiting,none⟩ := telling.counts.quiet pending
    have untaken := (greet_idle platform before descriptor address luck c welcome).2.2.2
    exact telling.accepted platform results start before c counts waiting none untaken
  | started descriptor address luck new controllers pending fresh welcome last sent =>
    obtain ⟨waiting,none⟩ := telling.counts.quiet pending
    obtain ⟨rfl,_,unread,untaken⟩ := greet_idle platform before descriptor address luck new welcome
    have idle := (telling.counts.greeted new pending fresh unread).2
    exact telling.started platform results start before luck _ new controllers _ counts waiting none untaken idle sent
  | reading i c d byte reachable here pending read =>
    have heard := reading_heard platform results before start i c d byte here pending (spoken c here)
      (received_reachable platform c byte reachable _ read) telling
    refine ⟨counts,telling.quiet,?_,telling.folded⟩
    exact each_update platform results before _ i d rfl rfl (fun _ _ => rfl) (fun _ _ => Iff.rfl)
      (fun _ _ => Iff.rfl) telling.each heard
  | reported i c d byte reachable type value pushed here pending read ok =>
    obtain ⟨sent,_⟩ := telling.counts.awaited i c here pending
    have heard := reported_heard platform results before start i c d byte type value pushed here pending
      (spoken c here) (received_reachable platform c byte reachable _ read) telling
    refine ⟨counts,fun waiting => absurd (waiting.symm.trans sent) Bool.false_ne_true,?_,
      foldReports_append platform.text start _ pushed before.reportLog (i,type,value) telling.folded ok⟩
    refine each_update platform results before _ i d.asyncWaitForMessage rfl rfl ?_ (fun _ _ => Iff.rfl)
      (fun _ _ => Iff.rfl) telling.each heard
    intro k other
    apply (reportsFrom_append before i k (type,value)).trans
    rw [if_neg (Ne.symm other),List.append_nil]
  | finished i c d byte reachable here pending read =>
    have heard := finished_heard platform results before start i c d byte here pending (spoken c here)
      (received_reachable platform c byte reachable _ read) telling
    refine ⟨counts,telling.quiet,?_,telling.folded⟩
    exact each_update platform results before _ i d rfl rfl (fun _ _ => rfl)
      (fun k other => mem_counted before.finishedLog i k other) (fun _ _ => Iff.rfl) telling.each heard
  | disconnected i c here pending =>
    have heard := disconnected_heard platform results before start i c here pending telling
    refine ⟨counts,telling.quiet,?_,telling.folded⟩
    exact each_update platform results before _ i {c with reads := c.reads.tail} rfl rfl (fun _ _ => rfl)
      (fun k other => mem_counted before.finishedLog i k other) (fun k other => mem_counted before.failedLog i k other)
      telling.each heard
  | transmitted i index count beyond c d here sent =>
    obtain ⟨heard,known⟩ := telling.each i c here
    obtain ⟨writes,received,rfl⟩ := transmit_shape _ c d index count beyond sent
    refine ⟨counts,telling.quiet,?_,telling.folded⟩
    refine each_update platform results before _ i _ rfl rfl (fun _ _ => rfl) (fun _ _ => Iff.rfl)
      (fun _ _ => Iff.rfl) telling.each ⟨heard,{known with hearing := fun started absent => ?_}⟩
    exact (known.hearing started absent).congr platform.order _ heard c _ rfl rfl rfl

theorem Telling.finished_reports (start : ResultProcessor) (m : DhtperfMaster) (i : Nat)
    (member : i ∈ m.finishedLog) (fine : i ∉ m.failedLog) (telling : Telling platform results start m) :
    m.reportsFrom i = reportResults (results i) := by
  obtain ⟨heard,known⟩ := telling.each i _ (List.getElem?_eq_getElem (telling.counts.members i member))
  rw [known.reports,known.done member fine,messages,List.filterMap_append,reported_map]
  exact List.append_nil _

theorem make_telling (workload : MasterWorkload) (dhtType : Bytes) (lowLatency : Bool) (acceptor : Descriptor)
    (nodes : 0 < workload.nodes.toNat) :
    Telling platform results (.make dhtType lowLatency) (.make workload dhtType lowLatency acceptor) where
  counts := .make workload dhtType lowLatency acceptor nodes
  quiet := fun _ => rfl
  each := fun i c here => by simp [make] at here
  folded := rfl

end DhtperfMaster
end Dhtperf
