import Dhtperf.DhtperfMaster.Reports

/-! Who has contributed to the aggregates when the run is over. Reports are merged as
they arrive, so a controller contributes all or nothing only as long as connections
break, and the time runs out, before the first measurement of the controllers concerned. -/
namespace Dhtperf
open Library Relation DhtperfController

namespace ResultProcessor

def latencyTypes : List Bytes :=
  [ascii "JoinLatency",ascii "LeaveLatency",ascii "PutLatency",ascii "GetLatency"]

def rateTypes : List Bytes := [ascii "JoinSuccessRate",ascii "GetSuccessRate"]

/-- There is a measurement in the report. A latency that cannot be parsed ends the master. -/
def carries (text : PosixTime) (report : Bytes × Bytes) : Bool :=
  if latencyTypes.contains report.1 then
    match (NodeLatency.ofString text report.2 : Except Fault (NodeLatency Rat)) with
    | .ok node => node.count ≠ 0
    | .error _ => false
  else if rateTypes.contains report.1 then (NodeSuccessRate.ofString report.2).count ≠ 0
  else true

theorem pushLatency_empty (text : PosixTime) (before after : ResultProcessor) (operation : DhtOperation)
    (value : Bytes) (node : NodeLatency Rat) (read : NodeLatency.ofString text value = .ok node)
    (none : node.count = 0) (ok : before.pushLatency text operation value = .ok after) : after = before := by
  have same (general : GeneralLatency) : general.push node = general := if_pos none
  simp only [pushLatency,read,same] at ok
  cases operation <;> exact (Except.ok.inj ok).symm

theorem pushSuccessRate_empty (before after : ResultProcessor) (operation : DhtOperation) (value : Bytes)
    (none : (NodeSuccessRate.ofString value).count = 0)
    (ok : before.pushSuccessRate operation value = .ok after) : after = before := by
  have same (general : GeneralSuccessRate) : general.push (.ofString value) = general := if_pos none
  cases operation with
  | join =>
    simp only [pushSuccessRate,same] at ok
    exact (Except.ok.inj ok).symm
  | get =>
    simp only [pushSuccessRate,same] at ok
    exact (Except.ok.inj ok).symm
  | leave => cases ok
  | put => cases ok

theorem pushResult_empty (text : PosixTime) (before after : ResultProcessor) (type value : Bytes)
    (empty : carries text (type,value) = false) (ok : before.pushResult text type value = .ok after) :
    after = before := by
  unfold carries at empty
  split at empty
  next latency =>
    obtain ⟨operation,pushed⟩ : ∃ operation, before.pushLatency text operation value = .ok after := by
      simp only [latencyTypes,List.contains_iff_mem,List.mem_cons,List.not_mem_nil,or_false] at latency
      rcases latency with rfl | rfl | rfl | rfl
      · exact ⟨.join,ok⟩
      · exact ⟨.leave,ok⟩
      · exact ⟨.put,ok⟩
      · exact ⟨.get,ok⟩
    cases read : (NodeLatency.ofString text value : Except Fault (NodeLatency Rat)) with
    | ok node =>
      simp only [read,decide_eq_false_iff_not,not_not] at empty
      exact pushLatency_empty text before after operation value node read empty pushed
    | error fault =>
      rw [pushLatency,read] at pushed
      cases pushed
  next =>
    split at empty
    next rate =>
      obtain ⟨operation,pushed⟩ : ∃ operation, before.pushSuccessRate operation value = .ok after := by
        simp only [rateTypes,List.contains_iff_mem,List.mem_cons,List.not_mem_nil,or_false] at rate
        rcases rate with rfl | rfl
        · exact ⟨.join,ok⟩
        · exact ⟨.get,ok⟩
      exact pushSuccessRate_empty before after operation value (by simpa using empty) pushed
    next => cases empty

end ResultProcessor

namespace DhtperfMaster
open ResultProcessor

theorem foldReports_filter (text : PosixTime) (start last : ResultProcessor) (log : List (Nat × Bytes × Bytes))
    (keep : Nat × Bytes × Bytes → Bool)
    (empty : ∀ entry ∈ log, keep entry = false → carries text entry.2 = false)
    (folded : foldReports text start log = .ok last) : foldReports text start (log.filter keep) = .ok last := by
  induction log generalizing start with
  | nil => exact folded
  | cons entry log ih =>
    have rest := fun e member => empty e (List.mem_cons_of_mem entry member)
    unfold foldReports at folded
    rw [List.foldlM_cons] at folded
    cases pushed : start.pushResult text entry.2.1 entry.2.2 with
    | error abort =>
      rw [pushed] at folded
      cases folded
    | ok next =>
      rw [pushed] at folded
      have later := ih next rest folded
      rw [List.filter_cons]
      split
      · unfold foldReports at later ⊢
        rw [List.foldlM_cons,pushed]
        exact later
      next dropped =>
        have nothing := empty entry (by simp) (by simpa using dropped)
        rwa [pushResult_empty text start next entry.2.1 entry.2.2 nothing pushed] at later

/-- The messages that are complete within so many bytes. -/
def arrived (order : ByteOrder) : List Message → Nat → List Message
  | [],_ => []
  | message :: messages,n =>
    if (message.bits order).length ≤ n then message :: arrived order messages (n - (message.bits order).length)
    else []

theorem arrived_heard (order : ByteOrder) (heard messages : List Message) (n : Nat) (known : heard <+: messages)
    (whole : (heard.flatMap (Message.bits order)).length ≤ n)
    (cut : ∀ message, heard ++ [message] <+: messages →
      n < ((heard ++ [message]).flatMap (Message.bits order)).length) :
    arrived order messages n = heard := by
  induction heard generalizing messages n with
  | nil =>
    cases messages with
    | nil => rfl
    | cons message messages =>
      have short := cut message (by simp)
      simp only [List.nil_append,List.flatMap_singleton] at short
      exact if_neg (by omega)
  | cons first heard ih =>
    obtain ⟨others,rfl⟩ := known
    have rest : heard <+: heard ++ others := List.prefix_append heard others
    simp only [List.flatMap_cons,List.length_append] at whole
    rw [List.cons_append,arrived,if_pos (by omega),ih (heard ++ others) _ rest (by omega)]
    intro message next
    have short := cut message (by simpa using next)
    simp only [List.cons_append,List.flatMap_cons,List.length_append] at short ⊢
    omega

variable (platform : Platform) (results : Nat → Results)

/-- No measurement of a controller has arrived in full. -/
def nothingYet (i : Nat) (c : ControllerConnection) : Bool :=
  ((arrived platform.order (script platform.order (results i)) c.taken.length).filterMap reported).all
    fun report => !carries platform.text report

/-- Nothing is cut off after its first measurement: neither a connection that breaks nor,
when the time is up, one that is still being read. -/
def Whole (m : DhtperfMaster) : Action → Prop
  | .readError i _ => ∀ c ∈ m.controllers[i]?, nothingYet platform results i c = true
  | .timeout => ∀ i < m.controllers.length, ∀ c ∈ m.controllers[i]?, c.reads ≠ [] →
      nothingYet platform results i c = true
  | _ => True

instance (m : DhtperfMaster) (action : Action) : Decidable (Whole platform results m action) :=
  match action with
  | .readError _ _ => by dsimp only [Whole]; infer_instance
  | .timeout => by dsimp only [Whole]; infer_instance
  | .accept _ _ _ | .acceptError | .receive _ _ _ | .writeError _ | .transmit _ _ _ _ => .isTrue trivial

theorem nothing_reported (start : ResultProcessor) (m : DhtperfMaster) (i : Nat) (c : ControllerConnection)
    (telling : Telling platform results start m) (here : m.controllers[i]? = some c)
    (nothing : nothingYet platform results i c = true) :
    ∀ report ∈ m.reportsFrom i, carries platform.text report = false := by
  obtain ⟨heard,known⟩ := telling.each i c here
  rw [nothingYet,arrived_heard platform.order heard _ _ known.known known.arrived.1.length_le known.arrived.2,
    List.all_eq_true] at nothing
  intro report member
  rw [known.reports] at member
  simpa using nothing report member

structure CutOff (m : DhtperfMaster) : Prop where
  started : ∀ cause, m.pc = .stopped cause → m.startMessagesSent = true
  inside : ∀ entry ∈ m.reportLog, entry.1 < m.controllers.length
  failed : ∀ i ∈ m.failedLog, ∀ report ∈ m.reportsFrom i, carries platform.text report = false
  stopped : ∀ cause, m.pc = .stopped cause → ∀ i < m.controllers.length, i ∉ m.finishedLog →
    ∀ report ∈ m.reportsFrom i, carries platform.text report = false

theorem finish_stopped (m : DhtperfMaster) (i : Nat) (cause : StopCause) (serving : m.pc = .serving)
    (stopped : (m.controllerFinished i).pc = .stopped cause) :
    (m.controllerFinished i).pc = .stopped .controllerFinished := by
  simp only [controllerFinished,serving] at stopped ⊢
  split at stopped
  next last => rw [if_pos last]
  next => cases stopped

theorem step_cutOff (start : ResultProcessor) (before after : DhtperfMaster)
    (telling : Telling platform results start before) (cutOff : CutOff platform before)
    (step : StepIf platform (Whole platform results) before after) : CutOff platform after := by
  obtain ⟨action,whole,acted⟩ := step
  have counts := telling.counts
  have later := step_counts platform before after counts ⟨action,acted⟩
  obtain ⟨serving,moved⟩ := act_moves platform before after action acted
  have running : ∀ cause, before.pc ≠ .stopped cause := fun cause stopped => nomatch serving.symm.trans stopped
  have kept (i : Nat) (d : ControllerConnection) : (before.update i d).controllers.length = before.controllers.length :=
    List.length_set
  cases moved with
  | aborted _ abort fails =>
    exact ⟨fun cause stopped => (nomatch stopped),cutOff.inside,cutOff.failed,fun cause stopped => nomatch stopped⟩
  | timedOut sent =>
    refine ⟨fun cause stopped => sent,cutOff.inside,cutOff.failed,fun cause stopped i bound absent => ?_⟩
    have here := List.getElem?_eq_getElem bound
    have awaited := counts.each i _ here
    rw [if_pos sent,List.count_eq_zero_of_not_mem absent] at awaited
    have reading : before.controllers[i].reads ≠ [] := fun none => by simp [none] at awaited
    exact nothing_reported platform results start before i _ telling here (whole i bound _ here reading)
  | accepted descriptor address luck c pending fresh welcome more =>
    refine ⟨cutOff.started,fun entry member => ?_,cutOff.failed,fun cause stopped => absurd stopped (running cause)⟩
    have old := cutOff.inside entry member
    simp only [List.length_append]
    omega
  | started descriptor address luck new controllers pending fresh welcome last sent =>
    refine ⟨fun cause stopped => rfl,fun entry member => ?_,cutOff.failed,
      fun cause stopped => absurd stopped (running cause)⟩
    have old := cutOff.inside entry member
    have size := (sendStartMessages_each platform luck _ 0 _ controllers sent).1
    simp only [List.length_append] at size ⊢
    omega
  | reading i c d byte reachable here pending read =>
    exact ⟨cutOff.started,fun entry member => kept i d ▸ cutOff.inside entry member,cutOff.failed,
      fun cause stopped => absurd stopped (running cause)⟩
  | transmitted i index count beyond c d here sent =>
    exact ⟨cutOff.started,fun entry member => kept i d ▸ cutOff.inside entry member,cutOff.failed,
      fun cause stopped => absurd stopped (running cause)⟩
  | reported i c d byte reachable type value pushed here pending read ok =>
    refine ⟨cutOff.started,fun entry member => ?_,fun k broken => ?_,
      fun cause stopped => absurd stopped (running cause)⟩
    · apply Nat.lt_of_lt_of_eq _ (kept i d.asyncWaitForMessage).symm
      rcases List.mem_append.mp member with old | new
      · exact cutOff.inside entry old
      · rw [List.mem_singleton.mp new]
        exact (List.getElem?_eq_some_iff.mp here).1
    · have absent := (counts.awaited i c here pending).2
      have other : i ≠ k := fun same => absent (counts.among.subset (same ▸ broken))
      intro report member
      apply cutOff.failed k broken report
      have same := reportsFrom_append before i k (type,value)
      rw [if_neg other,List.append_nil] at same
      exact same ▸ member
  | finished i c d byte reachable here pending read =>
    have sent := (counts.awaited i c here pending).1
    refine ⟨fun cause stopped => sent,fun entry member => kept i d ▸ cutOff.inside entry member,cutOff.failed,
      fun cause stopped k bound absent => ?_⟩
    exact absurd (later.all_counted (finish_stopped (before.update i d) i cause serving stopped) k bound) absent
  | disconnected i c here pending =>
    have sent := (counts.awaited i c here pending).1
    refine ⟨fun cause stopped => sent,
      fun entry member => kept i {c with reads := c.reads.tail} ▸ cutOff.inside entry member,fun k broken => ?_,
      fun cause stopped k bound absent => ?_⟩
    · rcases List.mem_append.mp broken with old | new
      · exact cutOff.failed k old
      · rw [List.mem_singleton.mp new]
        exact nothing_reported platform results start before i c telling here (whole c here)
    · exact absurd (later.all_counted (finish_stopped (before.update i {c with reads := c.reads.tail}) i cause serving
        stopped) k bound) absent

/-- Everything that is known in a run that cuts off only controllers without measurements. -/
structure Account (start : ResultProcessor) (m : DhtperfMaster) : Prop where
  telling : Telling platform results start m
  cutOff : CutOff platform m

/-- When the run is over, a controller counted as finished has contributed its six reports,
once and in their order, and every aggregate is what it would be without the reports of
the controllers counted as failed or unfinished, in every run in which nothing is cut off
after its first measurement. -/
theorem all_or_nothing (file dhtType : Bytes) (nodes : UInt32) (workload : MasterWorkload)
    (loaded : MasterWorkload.loadConfig file nodes = .ok (some workload)) (lowLatency : Bool)
    (acceptor : Descriptor) (m : DhtperfMaster)
    (run : ReflTransGen (StepIf platform fun m action =>
      Spoken platform.order results m action ∧ Whole platform results m action)
      (.make workload dhtType lowLatency acceptor) m) (cause : StopCause) (ended : m.pc = .stopped cause) :
    (∀ i < workload.nodes.toNat, i ∈ m.finishedLog → i ∉ m.failedLog →
        m.reportsFrom i = reportResults (results i)) ∧
      foldReports platform.text (.make dhtType lowLatency) m.reportLog = .ok m.resultProcessor ∧
      foldReports platform.text (.make dhtType lowLatency)
        (m.reportLog.filter fun entry => entry.1 ∈ m.finishedLog ∧ entry.1 ∉ m.failedLog) =
          .ok m.resultProcessor := by
  have positive := MasterWorkload.valid_nodes workload (MasterWorkload.loadConfig_valid file nodes workload loaded)
  obtain ⟨telling,cutOff⟩ : Account platform results (.make dhtType lowLatency) m := by
    refine run_invariant run ⟨make_telling platform results workload dhtType lowLatency acceptor positive,?_⟩ ?_
    · exact ⟨fun cause stopped => (nomatch stopped),fun entry member => by simp [make] at member,
        fun i broken => by simp [make] at broken,fun cause stopped => nomatch stopped⟩
    · rintro before after ⟨telling,cutOff⟩ ⟨action,⟨spoken,whole⟩,acted⟩
      exact ⟨step_telling platform results _ before after telling ⟨action,spoken,acted⟩,
        step_cutOff platform results _ before after telling cutOff ⟨action,whole,acted⟩⟩
  refine ⟨fun i bound member fine => ?_,telling.folded,?_⟩
  · exact telling.finished_reports platform results _ m i member fine
  · apply foldReports_filter platform.text _ _ _ _ _ telling.folded
    intro entry member dropped
    have reported : entry.2 ∈ m.reportsFrom entry.1 := List.mem_filterMap.mpr ⟨entry,member,if_pos rfl⟩
    by_cases broken : entry.1 ∈ m.failedLog
    · exact cutOff.failed entry.1 broken entry.2 reported
    · have absent : entry.1 ∉ m.finishedLog := fun finished => by simp [finished,broken] at dropped
      exact cutOff.stopped cause ended entry.1 (cutOff.inside entry member) absent entry.2 reported

def joinedNode : DhtNode :=
  {DhtNode.make with joinLatency := (NodeLatency.empty : NodeLatency Rat).push 5 100}

def pairResults (i : Nat) : Results :=
  (if i = 0 then joinedNode else DhtNode.make).getResults NodeLatency.oneDay

/-- One node reports its join to the end; the other has measured nothing, and its
connection breaks after its first report. -/
theorem lone_reports : ∃ m : DhtperfMaster, m.pc = .stopped .controllerFinished ∧ m.finishedLog = [0,1] ∧
    m.failedLog = [1] ∧ m.reportsFrom 1 = [(ascii "JoinLatency",[])] ∧
    foldReports NodeLatency.oneDay (.make (ascii "dummy") true)
      (m.reportLog.filter fun entry => entry.1 ∈ m.finishedLog ∧ entry.1 ∉ m.failedLog) =
        .ok m.resultProcessor := by
  obtain ⟨m,run,shape⟩ := perform_run (act ⟨.little,NodeLatency.oneDay,.shared⟩)
    (fun m action => Spoken .little pairResults m action ∧
      Whole ⟨.little,NodeLatency.oneDay,.shared⟩ pairResults m action)
    ([.accept 4 (ascii "host") smooth,.accept 5 (ascii "host") smooth] ++
      (((stream .little pairResults 1).take 20).map fun byte => .receive 1 byte true) ++
      ((stream .little pairResults 0).map fun byte => .receive 0 byte true) ++ [.readError 1 true])
    (make pairWorkload (ascii "dummy") true 3)
    (fun m => m.pc = .stopped .controllerFinished ∧ m.finishedLog = [0,1] ∧ m.failedLog = [1] ∧
      m.reportsFrom 1 = [(ascii "JoinLatency",[])]) (by decide +kernel)
  obtain ⟨ended,finished,failed,reports⟩ := of_decide_eq_true shape
  have whole := all_or_nothing ⟨.little,NodeLatency.oneDay,.shared⟩ pairResults pairFile (ascii "dummy") 0
    pairWorkload rfl true 3 m run .controllerFinished ended
  exact ⟨m,ended,finished,failed,reports,whole.2.2⟩

theorem cut_off_after (cut : Action) (status : NodesStatus)
    (listed : (cut,status) ∈ [(Action.timeout,NodesStatus.mk 0 0 1),(.readError 0 true,⟨0,1,0⟩)]) :
    ∃ m, ReflTransGen (StepIf ⟨.little,NodeLatency.oneDay,.shared⟩
        (Spoken .little fun _ => joinedNode.getResults NodeLatency.oneDay))
        (make loneWorkload (ascii "dummy") true 3) m ∧
      (∃ cause, m.pc = .stopped cause) ∧ m.nodesStatus = status ∧
      m.resultProcessor.joinLatency.generalStatistics.count = 1 := by
  obtain ⟨m,run,shape⟩ := perform_run (act ⟨.little,NodeLatency.oneDay,.shared⟩)
    (Spoken .little fun _ => joinedNode.getResults NodeLatency.oneDay)
    (.accept 4 (ascii "host") smooth :: (((stream .little (fun _ => joinedNode.getResults NodeLatency.oneDay) 0).take
      58).map fun byte => .receive 0 byte true) ++ [cut])
    (make loneWorkload (ascii "dummy") true 3)
    (fun m => (m.pc = .stopped .timeout ∨ m.pc = .stopped .controllerFinished) ∧ m.nodesStatus = status ∧
      m.resultProcessor.joinLatency.generalStatistics.count = 1) (by
        simp only [List.mem_cons,Prod.mk.injEq,List.not_mem_nil,or_false] at listed
        rcases listed with ⟨rfl,rfl⟩ | ⟨rfl,rfl⟩ <;> decide +kernel)
  obtain ⟨ended,known,count⟩ := of_decide_eq_true shape
  exact ⟨m,run,ended.elim (fun stopped => ⟨_,stopped⟩) fun stopped => ⟨_,stopped⟩,known,count⟩

/-- The run is cut off after the first report, by the timer or by a broken connection. The
node is counted as unfinished or as failed, and its latency is in the aggregate all the
same. -/
theorem cut_off_contributes :
    (∃ m, ReflTransGen (StepIf ⟨.little,NodeLatency.oneDay,.shared⟩
        (Spoken .little fun _ => joinedNode.getResults NodeLatency.oneDay))
        (make loneWorkload (ascii "dummy") true 3) m ∧
      (∃ cause, m.pc = .stopped cause) ∧ m.nodesStatus = ⟨0,0,1⟩ ∧
      m.resultProcessor.joinLatency.generalStatistics.count = 1) ∧
    ∃ m, ReflTransGen (StepIf ⟨.little,NodeLatency.oneDay,.shared⟩
        (Spoken .little fun _ => joinedNode.getResults NodeLatency.oneDay))
        (make loneWorkload (ascii "dummy") true 3) m ∧
      (∃ cause, m.pc = .stopped cause) ∧ m.nodesStatus = ⟨0,1,0⟩ ∧
      m.resultProcessor.joinLatency.generalStatistics.count = 1 :=
  ⟨cut_off_after .timeout _ (by simp),cut_off_after (.readError 0 true) _ (by simp)⟩

end DhtperfMaster
end Dhtperf
