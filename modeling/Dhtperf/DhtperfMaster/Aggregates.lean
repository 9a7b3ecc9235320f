import Dhtperf.DhtperfMaster.Failures
import Dhtperf.Library.Interleavings
import Dhtperf.Metrics.Summary

/-! What the master's results say about all the nodes together. Each report goes to one
aggregate, and an aggregate sees every node once; so the results are the summaries of
all the data, however the reports of different nodes are interleaved. -/
namespace Dhtperf
open Library Relation DhtperfController

/-! ### What one report does -/

namespace ResultProcessor

def latency (results : ResultProcessor) : DhtOperation → GeneralLatency
  | .join => results.joinLatency
  | .leave => results.leaveLatency
  | .put => results.putLatency
  | .get => results.getLatency

def interval (lowLatency : Bool) : DhtOperation → Int
  | .join => if lowLatency then 250 * 1000 else 500 * 1000
  | .leave => if lowLatency then 250 * 1000 else 500 * 1000
  | .put => if lowLatency then 10 * 1000 else 50 * 1000
  | .get => if lowLatency then 10 * 1000 else 50 * 1000

theorem make_latency (dhtType : Bytes) (lowLatency : Bool) (op : DhtOperation) :
    (make dhtType lowLatency).latency op = .make (interval lowLatency op) := by
  cases op <;> rfl

theorem interval_nonzero (lowLatency : Bool) (op : DhtOperation) : interval lowLatency op ≠ 0 := by
  cases op <;> cases lowLatency <;> decide

def latencyType : DhtOperation → Bytes
  | .join => ascii "JoinLatency"
  | .leave => ascii "LeaveLatency"
  | .put => ascii "PutLatency"
  | .get => ascii "GetLatency"

variable (text : PosixTime)

def latencies (op : DhtOperation) (reports : List (Bytes × Bytes)) : List (NodeLatency Rat) :=
  reports.filterMap fun report =>
    if report.1 = latencyType op then
      (NodeLatency.ofString text report.2 : Except Fault (NodeLatency Rat)).toOption
    else none

def rates (type : Bytes) (reports : List (Bytes × Bytes)) : List NodeSuccessRate :=
  reports.filterMap fun report => if report.1 = type then some (.ofString report.2) else none

/-- Every aggregate has been pushed what the reports hold for it. -/
structure Pushed (before after : ResultProcessor) (reports : List (Bytes × Bytes)) : Prop where
  latency : ∀ op, after.latency op = (before.latency op).pushAll (latencies text op reports)
  joins : after.joinSuccessRate = before.joinSuccessRate.pushAll (rates (ascii "JoinSuccessRate") reports)
  gets : after.getSuccessRate = before.getSuccessRate.pushAll (rates (ascii "GetSuccessRate") reports)

theorem latencies_append (op : DhtOperation) (first second : List (Bytes × Bytes)) :
    latencies text op (first ++ second) = latencies text op first ++ latencies text op second :=
  List.filterMap_append

theorem rates_append (type : Bytes) (first second : List (Bytes × Bytes)) :
    rates type (first ++ second) = rates type first ++ rates type second := List.filterMap_append

theorem pushed_append (before middle after : ResultProcessor) (first second : List (Bytes × Bytes))
    (start : Pushed text before middle first) (rest : Pushed text middle after second) :
    Pushed text before after (first ++ second) where
  latency := by
    intro op
    rw [rest.latency op,start.latency op,latencies_append]
    exact List.foldl_append.symm
  joins := by
    rw [rest.joins,start.joins,rates_append]
    exact List.foldl_append.symm
  gets := by
    rw [rest.gets,start.gets,rates_append]
    exact List.foldl_append.symm

theorem pushLatency_pushed (before after : ResultProcessor) (op : DhtOperation) (value : Bytes)
    (ok : before.pushLatency text op value = .ok after) : Pushed text before after [(latencyType op,value)] := by
  unfold pushLatency at ok
  split at ok
  next => cases ok
  next node read =>
    cases ok
    have reported (other : DhtOperation) : latencies text other [(latencyType op,value)] =
        if latencyType op = latencyType other then [node] else [] := by
      by_cases same : latencyType op = latencyType other
      · simp [latencies,same,read,Except.toOption]
      · simp [latencies,same]
    cases op with
    | join => exact ⟨fun other => by rw [reported]; cases other <;> rfl,rfl,rfl⟩
    | leave => exact ⟨fun other => by rw [reported]; cases other <;> rfl,rfl,rfl⟩
    | put => exact ⟨fun other => by rw [reported]; cases other <;> rfl,rfl,rfl⟩
    | get => exact ⟨fun other => by rw [reported]; cases other <;> rfl,rfl,rfl⟩

theorem pushResult_pushed (before after : ResultProcessor) (report : Bytes × Bytes)
    (ok : before.pushResult text report.1 report.2 = .ok after) : Pushed text before after [report] := by
  obtain ⟨type,value⟩ := report
  simp only [pushResult] at ok
  split at ok
  next same => exact same ▸ pushLatency_pushed text before after .join value ok
  split at ok
  next same => exact same ▸ pushLatency_pushed text before after .leave value ok
  split at ok
  next same => exact same ▸ pushLatency_pushed text before after .put value ok
  split at ok
  next same => exact same ▸ pushLatency_pushed text before after .get value ok
  split at ok
  next same =>
    subst same
    cases ok
    exact ⟨fun op => by cases op <;> rfl,rfl,rfl⟩
  split at ok
  next same =>
    subst same
    cases ok
    exact ⟨fun op => by cases op <;> rfl,rfl,rfl⟩
  split at ok
  next same =>
    subst same
    cases ok
    exact ⟨fun op => by cases op <;> rfl,rfl,rfl⟩
  next => cases ok

theorem foldReports_pushed (before after : ResultProcessor) (log : List (Nat × Bytes × Bytes))
    (ok : DhtperfMaster.foldReports text before log = .ok after) :
    Pushed text before after (log.map (·.2)) := by
  induction log generalizing before with
  | nil =>
    cases ok
    exact ⟨fun op => rfl,rfl,rfl⟩
  | cons entry log ih =>
    obtain ⟨middle,here,rest⟩ := bind_ok ok
    have first := pushResult_pushed text before middle entry.2 here
    have others := ih middle rest
    exact pushed_append text before middle after [entry.2] _ first others

end ResultProcessor

/-! ### What a node has measured -/

/-- The durations of one operation, with the distinct times they were pushed at. -/
structure Series (time duration : Int → Prop) where
  pushes : List (Int × Int)
  range : ∀ p ∈ pushes, time p.1 ∧ duration p.2
  distinct : (pushes.map (·.1)).Nodup

/-- Hits and misses; their sum is an `int64_t`. -/
structure Attempts where
  hits : Nat
  misses : Nat
  fits : hits + misses < 2^63

def Series.durations {time duration : Int → Prop} (series : Series time duration) : List Int :=
  series.pushes.map (·.2)

def Attempts.counts (attempts : Attempts) : Nat × Nat := (attempts.hits,attempts.misses)

structure NodeRecord (time duration : Int → Prop) where
  series : DhtOperation → Series time duration
  joins : Attempts
  gets : Attempts

namespace NodeRecord
variable {time duration : Int → Prop} (record : NodeRecord time duration)

def node : DhtNode :=
  {DhtNode.make with
    joinLatency := .measure (record.series .join).pushes
    leaveLatency := .measure (record.series .leave).pushes
    putLatency := .measure (record.series .put).pushes
    getLatency := .measure (record.series .get).pushes
    joinSuccessRate := GeneralSuccessRate.counted record.joins.counts
    getSuccessRate := GeneralSuccessRate.counted record.gets.counts}

def rebuilt (op : DhtOperation) : NodeLatency Rat :=
  .measure (NodeLatency.measure (record.series op).pushes : NodeLatency Rat).measurements.toList

theorem measured : record.node.Measured time duration := by
  intro latency listed entry member
  simp only [List.mem_cons,List.not_mem_nil,or_false] at listed
  have inside (op : DhtOperation) (same : latency = .measure (record.series op).pushes) :
      time entry.1 ∧ duration entry.2 :=
    (record.series op).range entry (NodeLatency.measure_entries (D := Rat) _ entry (same ▸ member))
  rcases listed with same | same | same | same
  · exact inside .join same
  · exact inside .leave same
  · exact inside .put same
  · exact inside .get same

theorem rebuilt_holds (op : DhtOperation) : (record.rebuilt op).Holds (record.series op).durations := by
  have entries : (NodeLatency.measure (record.series op).pushes : NodeLatency Rat).measurements.toList.Perm
      (record.series op).pushes := by
    rw [(NodeLatency.measure_parts _).1]
    exact insertAll_fresh _ (record.series op).distinct
  have again := NodeLatency.measure_holds _ ((entries.map (·.1)).nodup_iff.mpr (record.series op).distinct)
  have values := entries.map (·.2)
  exact ⟨again.count.trans values.length_eq,again.mean.trans (average_perm (values.map _)),again.entries.trans values⟩

variable (text : PosixTime)

def results : Results := record.node.getResults text

theorem reported_latencies (inverse : text.Inverse time duration) (op : DhtOperation) :
    ResultProcessor.latencies text op (reportResults (record.results text)) = [record.rebuilt op] := by
  have read (op : DhtOperation) := congrArg (fun value => [value].filterMap Except.toOption)
    (NodeLatency.ofString_toString (D := Rat) text inverse (.measure (record.series op).pushes) fun entry member =>
      (record.series op).range entry (NodeLatency.measure_entries (D := Rat) _ entry member))
  -- The other reports are of another type, so only one is read.
  cases op with
  | join => exact read .join
  | leave => exact read .leave
  | put => exact read .put
  | get => exact read .get

theorem reported_joins :
    ResultProcessor.rates (ascii "JoinSuccessRate") (reportResults (record.results text)) =
      [GeneralSuccessRate.counted record.joins.counts] := by
  have fits := record.joins.fits
  exact congrArg ([·]) (NodeSuccessRate.ofString_toString record.joins.hits record.joins.misses (by omega))

theorem reported_gets :
    ResultProcessor.rates (ascii "GetSuccessRate") (reportResults (record.results text)) =
      [GeneralSuccessRate.counted record.gets.counts] := by
  have fits := record.gets.fits
  exact congrArg ([·]) (NodeSuccessRate.ofString_toString record.gets.hits record.gets.misses (by omega))

end NodeRecord

/-! ### All the nodes -/

namespace ResultProcessor

section Nodes
variable (text : PosixTime) {time duration : Int → Prop} (dhtType : Bytes) (lowLatency : Bool) (n : Nat)
  (nodes : Nat → NodeRecord time duration)

/-- The aggregates are the summaries of what the nodes have measured. -/
structure Aggregated (results : ResultProcessor) : Prop where
  latency : ∀ op, (results.latency op).summary =
    .of (interval lowLatency op) ((List.range n).map fun i => ((nodes i).series op).durations)
  joins : results.joinSuccessRate.summary = .of ((List.range n).map fun i => (nodes i).joins.counts)
  gets : results.getSuccessRate.summary = .of ((List.range n).map fun i => (nodes i).gets.counts)

variable (inverse : text.Inverse time duration) (log : List (Nat × Bytes × Bytes))
  (interleaved : Interleaves n (fun i => reportResults ((nodes i).results text)) log)
include inverse interleaved

theorem pushed_aggregated (results : ResultProcessor)
    (pushed : Pushed text (make dhtType lowLatency) results (log.map (·.2))) :
    Aggregated lowLatency n nodes results where
  latency := by
    intro op
    obtain ⟨order,perm,picked⟩ := interleaved.pick _ (fun i => (nodes i).rebuilt op)
      fun i _ => (nodes i).reported_latencies text inverse op
    have summary := GeneralLatency.pushAll_summary (fun i => (nodes i).rebuilt op)
      (fun i => ((nodes i).series op).durations) (interval lowLatency op) (interval_nonzero lowLatency op) order
      fun i _ => (nodes i).rebuilt_holds op
    rw [pushed.latency op,make_latency,latencies,picked,summary]
    exact LatencySummary.of_perm _ (perm.map _)
  joins := by
    obtain ⟨order,perm,picked⟩ := interleaved.pick _ (fun i => GeneralSuccessRate.counted (nodes i).joins.counts)
      fun i _ => (nodes i).reported_joins text
    have summary := GeneralSuccessRate.pushAll_summary (order.map fun i => (nodes i).joins.counts)
    rw [List.map_map] at summary
    rw [pushed.joins,rates,picked]
    exact summary.trans (RateSummary.of_perm (perm.map _))
  gets := by
    obtain ⟨order,perm,picked⟩ := interleaved.pick _ (fun i => GeneralSuccessRate.counted (nodes i).gets.counts)
      fun i _ => (nodes i).reported_gets text
    have summary := GeneralSuccessRate.pushAll_summary (order.map fun i => (nodes i).gets.counts)
    rw [List.map_map] at summary
    rw [pushed.gets,rates,picked]
    exact summary.trans (RateSummary.of_perm (perm.map _))

omit inverse in
theorem interleaved_reports (entry : Nat × Bytes × Bytes) (member : entry ∈ log) :
    entry.2 ∈ reportResults ((nodes entry.1).node.getResults text) := (interleaved.mem entry member).2

theorem folded_aggregated (results : ResultProcessor)
    (folded : DhtperfMaster.foldReports text (make dhtType lowLatency) log = .ok results) :
    Aggregated lowLatency n nodes results := by
  apply pushed_aggregated text dhtType lowLatency n nodes inverse log interleaved results
  exact foldReports_pushed text _ results log folded

theorem foldReports_ok : ∃ results, DhtperfMaster.foldReports text (make dhtType lowLatency) log = .ok results := by
  have known := interleaved_reports text n nodes log interleaved
  clear interleaved
  generalize make dhtType lowLatency = start
  induction log generalizing start with
  | nil => exact ⟨start,rfl⟩
  | cons entry log ih =>
    obtain ⟨middle,here⟩ := pushResult_ok text inverse start (nodes entry.1).node (nodes entry.1).measured entry.2
      (known entry (by simp))
    obtain ⟨results,rest⟩ := ih (fun e member => known e (List.mem_cons_of_mem _ member)) middle
    refine ⟨results,?_⟩
    simp only [DhtperfMaster.foldReports,List.foldlM_cons,here]
    exact rest

end Nodes

/-! ### Decoding -/

def receiveReport (order : ByteOrder) (text : PosixTime) (results : ResultProcessor) (bits : Bytes) :
    Except Abort ResultProcessor :=
  match Message.fromBits order (MessageHeader.read order (bits.take headerSize)) (bits.drop headerSize) with
  | .error error => throw (.decode error)
  | .ok (.report type value) => results.pushResult text type value
  | .ok _ => throw .invalidOpcode

def receiveReports (order : ByteOrder) (text : PosixTime) (results : ResultProcessor) (log : List (Nat × Bytes)) :
    Except Abort ResultProcessor :=
  log.foldlM (fun results entry => results.receiveReport order text entry.2) results

variable (order : ByteOrder) (text : PosixTime)

def decoded (bits : Bytes) : Bytes × Bytes :=
  match Message.fromBits order (MessageHeader.read order (bits.take headerSize)) (bits.drop headerSize) with
  | .ok (.report type value) => (type,value)
  | _ => ([],[])

theorem fromBits_bits (message : Message) (fits : (message.body order).length < 2^32) (plain : message.Plain)
    (sized : message.Sized) :
    Message.fromBits order (MessageHeader.read order ((message.bits order).take headerSize))
      ((message.bits order).drop headerSize) = .ok message := by
  have header : (message.bits order).take headerSize = (message.header order).write order :=
    List.take_left' (MessageHeader.write_length order _)
  have body : (message.bits order).drop headerSize = message.body order :=
    List.drop_left' (MessageHeader.write_length order _)
  rw [header,body,MessageHeader.read_write,Message.fromBits_body order message _ fits plain fun _ => rfl,if_pos sized]

theorem receiveReport_bits (results : ResultProcessor) (result : Bytes × Bytes) (bits : Bytes)
    (known : result.1 ∈ resultTypes) (sent : (report result).toBits order = .ok bits) :
    results.receiveReport order text bits = results.pushResult text result.1 result.2 ∧ decoded order bits = result := by
  obtain ⟨rfl,fits⟩ := Message.toBits_bits order (report result) bits sent
  have read := fromBits_bits order (report result) fits (types_plain result.1 known) trivial
  constructor
  · simp only [receiveReport,read]
    rfl
  · simp only [decoded,read]
    rfl

theorem decoded_reports (reports : List (Bytes × Bytes)) (frames : List Bytes)
    (known : ∀ result ∈ reports, result.1 ∈ resultTypes)
    (sent : (reports.map report).mapM (Message.toBits order) = .ok frames) :
    frames.map (decoded order) = reports ∧ ∀ bits ∈ frames, ∀ results : ResultProcessor,
      results.receiveReport order text bits =
        results.pushResult text (decoded order bits).1 (decoded order bits).2 := by
  induction reports generalizing frames with
  | nil =>
    cases sent
    exact ⟨rfl,fun bits none => nomatch none⟩
  | cons result reports ih =>
    rw [List.map_cons,List.mapM_cons] at sent
    obtain ⟨bits,here,sent⟩ := bind_ok sent
    obtain ⟨others,rest,ok⟩ := bind_ok sent
    cases ok
    obtain ⟨same,each⟩ := ih others (fun r member => known r (List.mem_cons_of_mem _ member)) rest
    have first := fun results => receiveReport_bits order text results result bits (known result (by simp)) here
    have equal := (first (make [] true)).2
    refine ⟨by rw [List.map_cons,equal,same],fun other member results => ?_⟩
    rcases List.mem_cons.mp member with rfl | later
    · rw [(first results).1,equal]
    · exact each other later results

theorem receiveReports_fold (start : ResultProcessor) (log : List (Nat × Bytes))
    (each : ∀ entry ∈ log, ∀ results : ResultProcessor, results.receiveReport order text entry.2 =
      results.pushResult text (decoded order entry.2).1 (decoded order entry.2).2) :
    start.receiveReports order text log =
      DhtperfMaster.foldReports text start (log.map fun entry => (entry.1,decoded order entry.2)) := by
  induction log generalizing start with
  | nil => rfl
  | cons entry log ih =>
    have later := fun middle => ih middle fun e member => each e (List.mem_cons_of_mem _ member)
    simp only [receiveReports,DhtperfMaster.foldReports,List.map_cons,List.foldlM_cons] at later ⊢
    rw [each entry (by simp) start]
    congr 1
    exact funext later

/-- Whatever the nodes have measured and however their Report messages are interleaved,
the master decodes and pushes them all, and its aggregates are the summaries of all the
measurements. -/
theorem aggregates {time duration : Int → Prop} (inverse : text.Inverse time duration) (dhtType : Bytes)
    (lowLatency : Bool) (n : Nat) (nodes : Nat → NodeRecord time duration) (frames : Nat → List Bytes)
    (sent : ∀ i < n, ((reportResults ((nodes i).results text)).map report).mapM (Message.toBits order) =
      .ok (frames i))
    (log : List (Nat × Bytes)) (interleaved : Interleaves n frames log) :
    ∃ results, (make dhtType lowLatency).receiveReports order text log = .ok results ∧
      Aggregated lowLatency n nodes results := by
  have read (i : Nat) (bound : i < n) := decoded_reports order text _ (frames i)
    (fun result member => types_known _ result member) (sent i bound)
  have reports : Interleaves n (fun i => reportResults ((nodes i).results text))
      (log.map fun entry => (entry.1,decoded order entry.2)) :=
    ⟨(interleaved.map (decoded order)).among,fun i bound =>
      ((interleaved.map (decoded order)).each i bound).trans (read i bound).1⟩
  have fold := receiveReports_fold order text (make dhtType lowLatency) log fun entry member =>
    have inside := interleaved.mem entry member
    (read entry.1 inside.1).2 entry.2 inside.2
  obtain ⟨results,folded⟩ := foldReports_ok text dhtType lowLatency n nodes inverse _ reports
  exact ⟨results,fold.trans folded,folded_aggregated text dhtType lowLatency n nodes inverse _ reports results folded⟩

end ResultProcessor

/-! ### Two nodes -/

def twoNodes (i : Nat) : NodeRecord (· ∈ [5,7]) (· ∈ [100,2000000]) where
  series := fun
    | .join => if i = 0 then ⟨[(5,100)],by decide,by decide⟩ else ⟨[(7,100),(5,2000000)],by decide,by decide⟩
    | _ => ⟨[],by decide,by decide⟩
  joins := if i = 0 then ⟨1,0,by decide⟩ else ⟨1,1,by decide⟩
  gets := ⟨0,0,by decide⟩

def twoFrames (i : Nat) : List Bytes :=
  ((reportResults ((twoNodes i).results NodeLatency.oneDay)).map report).map (Message.bits .little)

theorem aggregates_two : ∃ results, (ResultProcessor.make (ascii "dummy") true).receiveReports .little
      NodeLatency.oneDay ((List.range 6).flatMap fun k => [(1,(twoFrames 1).getD k []),(0,(twoFrames 0).getD k [])]) =
        .ok results ∧ ResultProcessor.Aggregated true 2 twoNodes results :=
  ResultProcessor.aggregates .little NodeLatency.oneDay NodeLatency.oneDay_inverse (ascii "dummy") true 2 twoNodes
    twoFrames (fun i bound => Message.toBits_all .little _ (by
      have fits : ∀ i < 2, ∀ m ∈ (reportResults ((twoNodes i).results NodeLatency.oneDay)).map report,
        (m.body .little).length < 2^32 := by decide +kernel
      exact fits i bound)) _ ⟨by decide +kernel,by decide +kernel⟩

/-! ### The run of the master -/

namespace DhtperfMaster
variable (platform : Platform)

def KnownSenders (m : DhtperfMaster) : Prop := ∀ entry ∈ m.reportLog, entry.1 < m.controllers.length

theorem step_senders (before after : DhtperfMaster) (step : Step platform before after)
    (known : KnownSenders before) : KnownSenders after := by
  obtain ⟨action,acted⟩ := step
  obtain ⟨_,moved⟩ := act_moves platform before after action acted
  have grown := (moves_grow platform before after action moved).1
  have logged : after.reportLog = before.reportLog ∨
      ∃ i report, i < before.controllers.length ∧ after.reportLog = before.reportLog ++ [(i,report)] := by
    cases moved with
    | reported i c d byte reachable type value results here pending read pushed =>
      exact Or.inr ⟨i,(type,value),(List.getElem?_eq_some_iff.mp here).1,rfl⟩
    | _ => exact Or.inl rfl
  intro entry member
  rcases logged with same | ⟨i,report,bound,added⟩
  · exact lt_of_lt_of_le (known entry (same ▸ member)) grown
  · rw [added] at member
    rcases List.mem_append.mp member with old | new
    · exact lt_of_lt_of_le (known entry old) grown
    · rw [List.mem_singleton.mp new]
      exact lt_of_lt_of_le bound grown

structure Listed (results : Nat → Results) (start : ResultProcessor) (m : DhtperfMaster) : Prop where
  telling : Telling platform results start m
  senders : KnownSenders m

/-- When every controller has finished and none has failed, the master's aggregates are
the summaries of what all the nodes have measured, whatever the order of their bytes. -/
theorem aggregates_after_run {time duration : Int → Prop} (inverse : platform.text.Inverse time duration)
    (nodes : Nat → NodeRecord time duration) (file dhtType : Bytes) (given : UInt32) (workload : MasterWorkload)
    (loaded : MasterWorkload.loadConfig file given = .ok (some workload)) (lowLatency : Bool)
    (acceptor : Descriptor) (m : DhtperfMaster)
    (run : ReflTransGen (StepIf platform (Spoken platform.order fun i => (nodes i).results platform.text))
      (.make workload dhtType lowLatency acceptor) m)
    (ended : m.pc = .stopped .controllerFinished) (healthy : m.failedLog = []) :
    ResultProcessor.Aggregated lowLatency workload.nodes.toNat nodes m.resultProcessor := by
  have positive := MasterWorkload.valid_nodes workload (MasterWorkload.loadConfig_valid file given workload loaded)
  obtain ⟨telling,senders⟩ : Listed platform (fun i => (nodes i).results platform.text) (.make dhtType lowLatency) m := by
    refine run_invariant run ⟨make_telling platform _ workload dhtType lowLatency acceptor positive,?_⟩ ?_
    · exact fun entry none => nomatch none
    · rintro before after ⟨telling,senders⟩ ⟨action,spoken,acted⟩
      exact ⟨step_telling platform _ _ before after telling ⟨action,spoken,acted⟩,
        step_senders platform before after ⟨action,acted⟩ senders⟩
  have counts := telling.counts
  have workloads := (run_setup platform _ m (runIf_run platform _ _ m run)).1
  have size : m.controllers.length = workload.nodes.toNat := by
    have full := counts.stop.mp ended
    have most := counts.length_le
    have fewer := counts.finished_le
    rw [workloads] at full most
    change _ = workload.nodes.toNat at full
    change _ ≤ workload.nodes.toNat at most
    omega
  refine ResultProcessor.folded_aggregated platform.text dhtType lowLatency _ nodes inverse m.reportLog ?_ _
    telling.folded
  refine ⟨fun entry member => size ▸ senders entry member,fun i bound => ?_⟩
  exact telling.finished_reports platform _ _ m i (counts.all_counted ended i (size ▸ bound)) (by simp [healthy])

end DhtperfMaster

end Dhtperf
