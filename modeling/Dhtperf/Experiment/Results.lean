import Dhtperf.DhtperfController.Rounding
import Dhtperf.DhtperfMaster.Aggregates
import Dhtperf.Experiment
import Mathlib.Algebra.Order.BigOperators.Group.List

/-! What the master's results say about the runs behind them. Every loop is a run of the
file's strings, a report is the last word of a loop that has returned, and when all
controllers have finished the aggregates describe what all the loops have measured. -/
namespace Dhtperf
open Library Relation DhtperfController DhtperfMaster

/-! ### A node and its record -/

/-- What a node writes out is a record of distinct readings, whatever was overwritten. -/
theorem DhtNode.Recorded.record {time duration : Int → Prop} (text : PosixTime) (node : DhtNode)
    (recorded : node.Recorded time duration)
    (joins : node.joinSuccessRate.hits + node.joinSuccessRate.misses < 2^63)
    (gets : node.getSuccessRate.hits + node.getSuccessRate.misses < 2^63) :
    ∃ record : NodeRecord time duration, record.results text = node.getResults text ∧
      (∀ op, (record.series op).durations = node.durations op) ∧
      GeneralSuccessRate.counted record.joins.counts = node.joinSuccessRate ∧
      GeneralSuccessRate.counted record.gets.counts = node.getSuccessRate := by
  obtain ⟨⟨joinHits,joinMisses⟩,join_rate⟩ := recorded.joins
  obtain ⟨⟨getHits,getMisses⟩,get_rate⟩ := recorded.gets
  rw [join_rate] at joins
  rw [get_rate] at gets
  simp only [GeneralSuccessRate.counted] at joins gets
  have range (op : DhtOperation) : ∀ p ∈ (node.latency op).measurements.toList, time p.1 ∧ duration p.2 := by
    obtain ⟨pushes,measured,inside⟩ := recorded.series op
    exact fun p member => inside p (NodeLatency.measure_entries pushes p (measured ▸ member))
  refine ⟨⟨fun op => ⟨(node.latency op).measurements.toList,range op,toList_keys_nodup _⟩,
    ⟨joinHits,joinMisses,by omega⟩,⟨getHits,getMisses,by omega⟩⟩,?_,fun _ => rfl,join_rate.symm,get_rate.symm⟩
  unfold NodeRecord.results getResults NodeRecord.node
  simp only [NodeLatency.rebuilt_text,join_rate,get_rate]
  rfl

/-! ### A loop that has returned -/

namespace Loop
variable [heap : StdHeap]

theorem step_late (s after : Loop) (step : Step s after) (halted : after.pc = .ended .returned) :
    after.deadline < after.clock + 1000000 := by
  have moves := step_moves s after step
  cases moves with
  | expired reading here up => exact (timeUp_iff s reading).mp up
  | handled poppedAt pending op event rest attempts node reading pc here first next returned later check =>
    rcases check with ⟨up,rfl⟩ | ⟨_,rfl⟩
    · exact (timeUp_iff s reading).mp up
    · cases halted
  | batchDone poppedAt pending here empty =>
    rcases afterEvents_cases s with same | ⟨toWait,same⟩
    · rw [same] at halted
      cases halted
    · rw [same] at halted
      cases halted
  | failed reading fault here => cases halted
  | refused poppedAt pending op attempts fault here busy returned => cases halted
  | popped reading polled here later more ok some due => cases halted
  | waits reading polled here later more ok early => cases halted
  | wake toWait reading here later => cases halted

/-- A loop returns in the last second of its run or later. -/
theorem run_late (accepts : Distributions) (join leave put get : Bytes) (duration : TimeUnit) (draws : Draws)
    (first s : Loop) (accepted : start accepts join leave put get duration draws = .ok first) (run : Run first s)
    (halted : s.pc = .ended .returned) : duration.toNat * 1000000 < s.clock + 1000000 := by
  obtain ⟨profile,draws,rfl,_⟩ := start_enters accepts join leave put get duration draws first accepted
  have kept : s.duration = duration ∧ (s.pc = .ended .returned → s.deadline < s.clock + 1000000) := by
    refine @run_invariant Loop Step
      (fun s => s.duration = duration ∧ (s.pc = .ended .returned → s.deadline < s.clock + 1000000)) _ s run
      ⟨rfl,nofun⟩ ?_
    rintro before after ⟨same,_⟩ step
    exact ⟨(step_clock before after step).2.trans same,step_late before after step⟩
  have late := kept.2 halted
  unfold deadline at late
  rwa [kept.1] at late

end Loop

/-! ### What the master has heard -/

namespace DhtperfMaster
variable (platform : Platform) (results : Nat → Results)

theorem Telling.reports_prefix (start : ResultProcessor) (m : DhtperfMaster) (i : Nat) (c : ControllerConnection)
    (connected : m.controllers[i]? = some c) (telling : Telling platform results start m) :
    m.reportsFrom i <+: reportResults (results i) := by
  obtain ⟨heard,known⟩ := telling.each i c connected
  have part := (known.known.trans (script_messages platform.order (results i))).filterMap reported
  rw [messages,List.filterMap_append,reported_map] at part
  rw [show [Message.finish].filterMap reported = [] from rfl,List.append_nil] at part
  exact known.reports ▸ part

end DhtperfMaster

theorem System.master_run [heap : StdHeap] (order : ByteOrder) (text : PosixTime) (results : Nat → Results)
    (accepts : Distributions) (first last : System)
    (run : ReflTransGen (System.Step .intact order text results accepts) first last) :
    ReflTransGen (DhtperfMaster.StepIf ⟨order,text,.intact⟩ (Spoken order results)) first.master last.master := by
  refine run.lift' System.master fun before after step => ?_
  obtain ⟨action,reporting,acted⟩ := step
  cases action with
  | master action =>
    obtain ⟨master,moved,rfl⟩ := Option.map_eq_some_iff.mp acted
    exact .single ⟨action,reporting_spoken order results before action reporting,moved⟩
  | controller i draws =>
    simp only [act] at acted
    split at acted
    next =>
      obtain ⟨next,_,rfl⟩ := Option.map_eq_some_iff.mp acted
      exact .refl
    next => cases acted

namespace Experiment

section
variable [heap : StdHeap] (order : ByteOrder) (text : PosixTime) (accepts : Distributions) (draws : Nat → Draws)
  (time duration : Int → Prop) (file dhtType : Bytes) (given : UInt32) (workload : MasterWorkload)
  (loaded : MasterWorkload.loadConfig file given = .ok (some workload)) (lowLatency : Bool) (acceptor : Descriptor)
  (s : Experiment)
  (run : ReflTransGen (Step .intact order text accepts draws time duration) (make workload dhtType lowLatency acceptor) s)
include run

theorem run_linked : Linked accepts draws time duration s :=
  run_invariant run (make_linked accepts draws time duration workload dhtType lowLatency acceptor)
    (step_linked order text accepts draws time duration)

theorem told_run (told : Nat → Results) (foreseen : Foreseen text told s) :
    ReflTransGen (System.Step .intact order text told accepts) (.make workload dhtType lowLatency acceptor) s.system :=
  run_system order text accepts draws time duration told _ s
    (make_linked accepts draws time duration workload dhtType lowLatency acceptor) run foreseen

include loaded

theorem told_agreed (told : Nat → Results) (foreseen : Foreseen text told s) :
    System.Agreed order text told workload dhtType (.make dhtType lowLatency) s.system := by
  have positive := MasterWorkload.valid_nodes workload (MasterWorkload.loadConfig_valid file given workload loaded)
  have steps := told_run order text accepts draws time duration dhtType workload lowLatency acceptor s run told foreseen
  refine run_invariant steps ⟨⟨rfl,rfl,?_,?_,nofun⟩,rfl,?_⟩ fun before after known step =>
    System.step_agreed order text told accepts workload dhtType _ before after known step
  · exact make_telling _ told workload dhtType lowLatency acceptor positive
  · exact fun i c found => by simp [System.make,DhtperfMaster.make] at found
  · exact fun i c r connected => by simp [System.make,DhtperfMaster.make] at connected

/-- The messages a started controller has got name the strings and the duration of the file. -/
theorem started_given (i : Nat) (r : Receiver) (place : s.system.receivers[i]? = some r) (started : r.pc = .started) :
    r.duration = workload.duration ∧ ∃ name,
      MasterWorkload.NamedBy given (MasterWorkload.matchedLines file) (UInt32.ofNat i) name ∧
      ∀ op, MasterWorkload.GivenBy (MasterWorkload.matchedLines file) name op (r.text op) := by
  have agreed := told_agreed order text accepts draws time duration file dhtType given workload loaded lowLatency
    acceptor s run (s.results text) (results_foreseen text s)
  have linked := run_linked order text accepts draws time duration dhtType workload lowLatency acceptor s run
  have bound := (List.getElem?_eq_some_iff.mp place).1
  have connected := List.getElem?_eq_getElem (agreed.paired ▸ bound)
  obtain ⟨p,served⟩ := System.agreed_served order text _ file dhtType given workload loaded _ s.system agreed i _ r
    connected place
  have whole := served.complete started
  obtain ⟨addresses,sent⟩ := served.sent
  obtain ⟨host,entry,self,told⟩ := (linked.ready i r place).duration started
  rw [whole,sent] at told
  have three : r.got.length = 3 := by
    obtain ⟨_,_,follows⟩ := agreed.follows i _ r connected place
    have placed := follows.placed
    unfold Receiver.Placed at placed
    rw [started] at placed
    exact placed
  have handed := served.all (by omega) (by simp [started])
  refine ⟨?_,p.name,served.named,fun op => ?_⟩
  · split at told
    next =>
      simp only [List.cons_append,List.nil_append,List.mem_cons,List.not_mem_nil,or_false,profileMessage,
        startMessage,reduceCtorEq,false_or] at told
      exact (Message.start.inj told).1
    next => simp [profileMessage] at told
  · have same : r.text op = p.text op := by
      unfold Receiver.text
      rw [handed]
      cases op <;> rfl
    rw [same]
    exact served.strings op

theorem loop_given (i : Nat) (loop : Loop) (here : s.loops i = some loop) :
    ∃ (name : Bytes) (texts : DhtOperation → Bytes) (first : Loop),
      MasterWorkload.NamedBy given (MasterWorkload.matchedLines file) (UInt32.ofNat i) name ∧
      (∀ op, MasterWorkload.GivenBy (MasterWorkload.matchedLines file) name op (texts op)) ∧
      Loop.start accepts (texts .join) (texts .leave) (texts .put) (texts .get) workload.duration (draws i) =
        .ok first ∧
      Loop.Run first loop := by
  have linked := run_linked order text accepts draws time duration dhtType workload lowLatency acceptor s run
  obtain ⟨r,first,place,started,entered,steps⟩ := linked.begun i loop here
  obtain ⟨same,name,named,strings⟩ := started_given order text accepts draws time duration file dhtType given
    workload loaded lowLatency acceptor s run i r place started
  unfold Receiver.enter at entered
  rw [same] at entered
  exact ⟨name,r.text,first,named,strings,entered,Loop.actions_run _ first loop steps⟩

/-- A controller that has its three messages can always enter the loop, and every loop is a
run of `start` on the four strings and the duration that the file gives to its node. -/
theorem loops_given :
    (∀ i r, s.system.receivers[i]? = some r → r.pc = .started → s.loops i = none →
      ∃ after, act .intact order text accepts draws s (.start i) = some after) ∧
    ∀ i loop, s.loops i = some loop → ∃ (name : Bytes) (texts : DhtOperation → Bytes) (first : Loop),
      MasterWorkload.NamedBy given (MasterWorkload.matchedLines file) (UInt32.ofNat i) name ∧
      (∀ op, MasterWorkload.GivenBy (MasterWorkload.matchedLines file) name op (texts op)) ∧
      Loop.start accepts (texts .join) (texts .leave) (texts .put) (texts .get) workload.duration (draws i) =
        .ok first ∧
      Loop.Run first loop := by
  have linked := run_linked order text accepts draws time duration dhtType workload lowLatency acceptor s run
  refine ⟨fun i r place started none => ?_,?_⟩
  · obtain ⟨first,entered⟩ := (linked.ready i r place).enters accepts (draws i) r started
    exact ⟨{s with loops := Function.update s.loops i (some first)},by simp [act,place,none,started,entered]⟩
  · exact loop_given order text accepts draws time duration file dhtType given workload loaded lowLatency acceptor s run

/-! ### Reports come from loops that have returned -/

/-- Results that no two different first reports share. -/
def marked (mark : Bytes) : Results := ⟨mark,[],[],[],[],[]⟩

/-- Nothing is fixed about the results of a loop that goes on, so nothing can have been
heard of them. -/
theorem reported_returned (i : Nat) (c : ControllerConnection)
    (connected : s.system.master.controllers[i]? = some c) (some : s.system.master.reportsFrom i ≠ []) :
    ∃ loop ∈ s.loops i, loop.returned = true := by
  by_contra going
  have guess (mark : Bytes) : s.system.master.reportsFrom i <+: reportResults (marked mark) := by
    have foreseen : Foreseen text (Function.update (s.results text) i (marked mark)) s := by
      intro k loop here halted
      by_cases same : k = i
      · subst same
        exact absurd ⟨loop,here,halted⟩ going
      · rw [Function.update_of_ne same]
        exact results_foreseen text s k loop here halted
    have agreed := told_agreed order text accepts draws time duration file dhtType given workload loaded lowLatency
      acceptor s run _ foreseen
    have heard := agreed.courteous.telling.reports_prefix _ _ _ _ i c connected
    rwa [Function.update_self] at heard
  obtain ⟨report,reports,shape⟩ := List.exists_cons_of_ne_nil some
  have first := guess []
  have second := guess [0]
  rw [shape] at first second
  have one := (List.cons_prefix_cons.mp first).1
  have two := (List.cons_prefix_cons.mp second).1
  exact absurd (one.symm.trans two) (by simp [marked])

omit heap run loaded in
theorem results_own (i : Nat) (loop : Loop) (here : loop ∈ s.loops i) :
    s.results text i = loop.dhtNode.getResults text := by
  unfold results
  rw [Option.mem_def.mp here]
  rfl

theorem finished_final (i : Nat) (member : i ∈ s.system.master.finishedLog) (fine : i ∉ s.system.master.failedLog) :
    ∃ loop ∈ s.loops i, loop.pc = .ended .returned ∧
      s.system.master.reportsFrom i = reportResults (loop.dhtNode.getResults text) := by
  have agreed := told_agreed order text accepts draws time duration file dhtType given workload loaded lowLatency
    acceptor s run (s.results text) (results_foreseen text s)
  have telling := agreed.courteous.telling
  have whole := telling.finished_reports _ _ _ _ i member fine
  have connected := List.getElem?_eq_getElem (telling.counts.members i member)
  obtain ⟨loop,here,halted⟩ := reported_returned order text accepts draws time duration file dhtType given workload loaded
    lowLatency acceptor s run i _ connected (by rw [whole]; exact List.cons_ne_nil _ _)
  exact ⟨loop,here,(Loop.returned_iff loop).mp halted,by rw [whole,results_own text s i loop here]⟩

/-- Whatever the interleaving, what the master has been told by a controller is what the
loop of that controller has measured when it returned, which it does no earlier than a
second before the duration is over; and whoever is counted as finished, and not as
failed, has returned and has reported everything. -/
theorem reports_final :
    (∀ entry ∈ s.system.master.reportLog, ∃ loop ∈ s.loops entry.1, loop.pc = .ended .returned ∧
      workload.duration.toNat * 1000000 < loop.clock + 1000000 ∧
      entry.2 ∈ reportResults (loop.dhtNode.getResults text)) ∧
    ∀ i ∈ s.system.master.finishedLog, i ∉ s.system.master.failedLog →
      ∃ loop ∈ s.loops i, loop.pc = .ended .returned ∧
        s.system.master.reportsFrom i = reportResults (loop.dhtNode.getResults text) := by
  have agreed := told_agreed order text accepts draws time duration file dhtType given workload loaded lowLatency
    acceptor s run (s.results text) (results_foreseen text s)
  have senders : KnownSenders s.system.master :=
    run_invariant (System.master_run order text _ accepts _ _ (told_run order text accepts draws time duration dhtType
      workload lowLatency acceptor s run (s.results text) (results_foreseen text s)))
      (by intro entry none; cases none) fun before after known ⟨action,_,acted⟩ =>
        step_senders ⟨order,text,.intact⟩ before after ⟨action,acted⟩ known
  refine ⟨fun entry member => ?_,finished_final order text accepts draws time duration file dhtType given workload
    loaded lowLatency acceptor s run⟩
  have connected := List.getElem?_eq_getElem (senders entry member)
  have listed : entry.2 ∈ s.system.master.reportsFrom entry.1 := List.mem_filterMap.mpr ⟨entry,member,if_pos rfl⟩
  obtain ⟨loop,here,halted⟩ := reported_returned order text accepts draws time duration file dhtType given workload
    loaded lowLatency acceptor s run entry.1 _ connected (List.ne_nil_of_mem listed)
  have ended := (Loop.returned_iff loop).mp halted
  obtain ⟨_,texts,first,_,_,accepted,steps⟩ := loop_given order text accepts draws time duration file dhtType given
    workload loaded lowLatency acceptor s run entry.1 loop here
  refine ⟨loop,here,ended,Loop.run_late _ _ _ _ _ _ _ first loop accepted steps ended,?_⟩
  rw [← results_own text s entry.1 loop here]
  exact (agreed.courteous.telling.reports_prefix _ _ _ _ entry.1 _ connected).subset listed

/-! ### All controllers have finished -/

/-- The results of a healthy end next to the loops they come from. -/
structure AddsUp (n : Nat) (final : Nat → Loop) (results : ResultProcessor) : Prop where
  latency : ∀ op, (results.latency op).summary =
    .of (ResultProcessor.interval lowLatency op) ((List.range n).map fun i => (final i).dhtNode.durations op)
  joins : results.joinSuccessRate.summary = .of ((List.range n).map fun i =>
    (((final i).executed .join).length,(final i).dhtNode.joinSuccessRate.misses.toNat))
  gets : results.getSuccessRate.summary = .of ((List.range n).map fun i =>
    ((final i).dhtNode.getSuccessRate.hits.toNat,(final i).dhtNode.getSuccessRate.misses.toNat))
  events : ∀ op, op ≠ .join →
    (results.latency op).count ≤ ((List.range n).map fun i => ((final i).executed op).length).sum

omit heap run loaded in
theorem counted_parts (rate : NodeSuccessRate) (counts : Nat × Nat)
    (same : GeneralSuccessRate.counted counts = rate) : counts = (rate.hits.toNat,rate.misses.toNat) := by
  subst same
  rfl

omit heap run loaded in
theorem flatten_length {α β : Type} (lists : α → List β) (bound : α → Nat) (nodes : List α)
    (each : ∀ i ∈ nodes, (lists i).length ≤ bound i) : (nodes.map lists).flatten.length ≤ (nodes.map bound).sum := by
  rw [List.length_flatten,List.map_map]
  exact List.sum_le_sum each

omit loaded in
theorem loop_books (i : Nat) (loop : Loop) (here : s.loops i = some loop) :
    loop.Accounts ∧ loop.dhtNode.Recorded time duration := by
  have linked := run_linked order text accepts draws time duration dhtType workload lowLatency acceptor s run
  obtain ⟨r,first,_,_,entered,steps⟩ := linked.begun i loop here
  have free := Loop.actions_run _ first loop steps
  have counted := Loop.run_counted _ _ _ _ _ _ _ first loop entered free
  obtain ⟨profile,own,rfl,_⟩ := Loop.start_enters _ _ _ _ _ _ _ first entered
  have fresh (time duration : Int → Prop) : (Loop.enter profile r.duration own).dhtNode.Recorded time duration :=
    DhtNode.make_recorded time duration
  exact ⟨Loop.counted_accounts loop counted (Loop.run_recorded _ loop (fresh _ _) (Loop.run_within _ loop free)),
    Loop.run_recorded _ loop (fresh time duration) steps⟩

omit loaded in
theorem records (small : ∀ i, ∀ loop ∈ s.loops i, ∀ op, (loop.dhtNode.latency op).count < 2^63) (i : Nat) :
    ∃ record : NodeRecord time duration, ∀ loop ∈ s.loops i,
      record.results text = loop.dhtNode.getResults text ∧
      (∀ op, (record.series op).durations = loop.dhtNode.durations op) ∧
      GeneralSuccessRate.counted record.joins.counts = loop.dhtNode.joinSuccessRate ∧
      GeneralSuccessRate.counted record.gets.counts = loop.dhtNode.getSuccessRate := by
  cases here : s.loops i with
  | none =>
    obtain ⟨record,_⟩ := (DhtNode.make_recorded time duration).record text DhtNode.make (by decide) (by decide)
    exact ⟨record,fun loop none => nomatch none⟩
  | some loop =>
    obtain ⟨accounts,recorded⟩ := loop_books order text accepts draws time duration dhtType workload lowLatency
      acceptor s run i loop here
    have tries := small i loop here .join
    have gets := small i loop here .get
    rw [accounts.runs .get nofun] at gets
    have joins_bound := accounts.tries
    have gets_bound := accounts.gets
    obtain ⟨record,same⟩ := recorded.record text loop.dhtNode (by omega) (by omega)
    exact ⟨record,fun other member => by cases member; exact same⟩

/-- When every controller has finished and none has failed, every loop has returned, and the
master's aggregates are the exact summaries of what the maps of all the loops have kept, a
measurement that was overwritten at an equal reading not among it: one join hit
for each join event that was run, one hit or miss for each get, and never more leave,
put and get latencies than events of these kinds. -/
theorem experiment_adds_up (inverse : text.Inverse time duration)
    (ended : s.system.master.pc = .stopped .controllerFinished) (healthy : s.system.master.failedLog = [])
    (small : ∀ i, ∀ loop ∈ s.loops i, ∀ op, (loop.dhtNode.latency op).count < 2^63) :
    ∃ final : Nat → Loop,
      (∀ i < workload.nodes.toNat, s.loops i = some (final i) ∧ (final i).pc = .ended .returned ∧
        (final i).Accounts) ∧
      AddsUp lowLatency workload.nodes.toNat final s.system.master.resultProcessor := by
  have positive := MasterWorkload.valid_nodes workload (MasterWorkload.loadConfig_valid file given workload loaded)
  have agreed := told_agreed order text accepts draws time duration file dhtType given workload loaded lowLatency
    acceptor s run (s.results text) (results_foreseen text s)
  have counts := agreed.courteous.telling.counts
  have size : s.system.master.controllers.length = workload.nodes.toNat := by
    have full := counts.stop.mp ended
    have most := counts.length_le
    have fewer := counts.finished_le
    rw [agreed.courteous.workload_eq] at full most
    change _ = workload.nodes.toNat at full
    change _ ≤ workload.nodes.toNat at most
    omega
  have halted (i : Nat) (bound : i < workload.nodes.toNat) :
      ∃ loop, s.loops i = some loop ∧ loop.pc = .ended .returned := by
    obtain ⟨loop,here,ended,_⟩ := finished_final order text accepts draws time duration file dhtType given workload
      loaded lowLatency acceptor s run i (counts.all_counted ended i (size ▸ bound)) (by simp [healthy])
    exact ⟨loop,here,ended⟩
  have each (i : Nat) : ∃ loop, i < workload.nodes.toNat → s.loops i = some loop ∧ loop.pc = .ended .returned := by
    by_cases bound : i < workload.nodes.toNat
    · obtain ⟨loop,spec⟩ := halted i bound
      exact ⟨loop,fun _ => spec⟩
    · obtain ⟨loop,_⟩ := halted 0 positive
      exact ⟨loop,fun inside => absurd inside bound⟩
  choose final returned using each
  choose nodes same using
    records order text accepts draws time duration dhtType workload lowLatency acceptor s run small
  have steps := System.master_run order text _ accepts _ _ (told_run order text accepts draws time duration dhtType
    workload lowLatency acceptor s run (fun i => (nodes i).results text) fun i loop here _ => (same i loop here).1)
  have aggregated := aggregates_after_run ⟨order,text,.intact⟩ inverse nodes file dhtType given workload loaded
    lowLatency acceptor s.system.master steps ended healthy
  have accounts (i : Nat) (bound : i < workload.nodes.toNat) : (final i).Accounts :=
    (loop_books order text accepts draws time duration dhtType workload lowLatency acceptor s run i (final i)
      (returned i bound).1).1
  have own (i : Nat) (member : i ∈ List.range workload.nodes.toNat) :=
    same i (final i) (returned i (List.mem_range.mp member)).1
  refine ⟨final,fun i bound => ⟨(returned i bound).1,(returned i bound).2,accounts i bound⟩,?_⟩
  have latency (op : DhtOperation) : (s.system.master.resultProcessor.latency op).summary =
      .of (ResultProcessor.interval lowLatency op)
        ((List.range workload.nodes.toNat).map fun i => (final i).dhtNode.durations op) := by
    rw [aggregated.latency op]
    congr 1
    exact List.map_congr_left fun i member => (own i member).2.1 op
  refine ⟨latency,?_,?_,fun op other => ?_⟩
  · rw [aggregated.joins]
    congr 1
    refine List.map_congr_left fun i member => ?_
    have rate := counted_parts _ _ (own i member).2.2.1
    rw [rate,(accounts i (List.mem_range.mp member)).joins]
    rfl
  · rw [aggregated.gets]
    congr 1
    exact List.map_congr_left fun i member => counted_parts _ _ (own i member).2.2.2
  · have count := congrArg LatencySummary.count (latency op)
    change (s.system.master.resultProcessor.latency op).count = _ at count
    rw [count]
    refine flatten_length _ _ _ fun i member => ?_
    have books := accounts i (List.mem_range.mp member)
    exact (books.written op).trans_eq (books.runs op other)

end

/-! ### One node that joins -/

def visitFile : Bytes :=
  ascii "nodes 1\nduration 3\nprofile p\njoin exact 1\nleave none\nput none\nget none\ndefault-profile p\n"

def visitWorkload : MasterWorkload where
  nodes := 1
  duration := 3
  profiles := [⟨ascii "p",ascii "exact 1",ascii "none",ascii "none",ascii "none"⟩]
  nodeProfiles := fun i => if i < 1 then some (ascii "p") else none

theorem visit_loaded : MasterWorkload.loadConfig visitFile 0 = .ok (some visitWorkload) := by
  exact rfl

def visitor : DhtNode :=
  {DhtNode.make with
    joinLatency := (NodeLatency.empty : NodeLatency Rat).push 5 100
    joinSuccessRate := ⟨1,0⟩}

/-- Three messages of two reads each, a join, the end of the run and the reports. -/
def visit (descriptor : Descriptor) : List Action :=
  [.master (.accept descriptor (ascii "host") smooth),.controller 0,.controller 0,.controller 0,.controller 0,.controller 0,
    .controller 0,.start 0,.run 0 (.pass 1),.run 0 (.event [⟨true,0,100,5⟩] 2),.run 0 .batchDone,
    .run 0 (.pass 3000000)] ++
  (stream .little (fun _ => visitor.getResults NodeLatency.oneDay) 0).map fun byte => .master (.receive 0 byte true)

abbrev VisitStep : Experiment → Experiment → Prop :=
  @Step plainHeap .intact .little NodeLatency.oneDay ⟨fun _ => true,fun _ _ => true⟩ (fun _ _ => 0) (· ∈ [5,7])
    (· ∈ [100,2000000])

theorem visited : ∃ s, ReflTransGen VisitStep (make visitWorkload (ascii "dummy") true 3) s ∧
    s.system.master.pc = .stopped .controllerFinished ∧ s.system.master.finishedLog = [0] ∧
    s.system.master.failedLog = [] ∧ s.system.receivers.length = 1 ∧ (s.loops 0).isSome ∧
    ∀ loop ∈ s.loops 0, ∀ op ∈ [DhtOperation.join,.leave,.put,.get], (loop.dhtNode.latency op).count < 2^63 := by
  obtain ⟨s,run,shape⟩ := perform_run
    (@act plainHeap .intact .little NodeLatency.oneDay ⟨fun _ => true,fun _ _ => true⟩ fun _ _ => 0)
    (Permitted .little NodeLatency.oneDay (· ∈ [5,7]) (· ∈ [100,2000000])) (visit 4)
    (make visitWorkload (ascii "dummy") true 3)
    (fun s => s.system.master.pc = .stopped .controllerFinished ∧ s.system.master.finishedLog = [0] ∧
      s.system.master.failedLog = [] ∧ s.system.receivers.length = 1 ∧ (s.loops 0).isSome ∧
      ∀ loop ∈ s.loops 0, ∀ op ∈ [DhtOperation.join,.leave,.put,.get], (loop.dhtNode.latency op).count < 2^63)
    (by decide +kernel)
  exact ⟨s,run,of_decide_eq_true shape⟩

theorem visit_given : ∃ (s : Experiment) (loop first : Loop) (texts : DhtOperation → Bytes), s.loops 0 = some loop ∧
    @Loop.start plainHeap ⟨fun _ => true,fun _ _ => true⟩ (texts .join) (texts .leave) (texts .put) (texts .get) 3
      (fun _ => 0) = .ok first ∧ @Loop.Run plainHeap first loop := by
  obtain ⟨s,run,_,_,_,_,there,_⟩ := visited
  obtain ⟨loop,here⟩ := Option.isSome_iff_exists.mp there
  obtain ⟨_,texts,first,_,_,accepted,steps⟩ := (@loops_given plainHeap _ _ _ _ _ _ visitFile (ascii "dummy") 0
    visitWorkload visit_loaded true 3 s run).2 0 loop here
  exact ⟨s,loop,first,texts,here,accepted,steps⟩

theorem visit_final : ∃ (s : Experiment) (loop : Loop), s.loops 0 = some loop ∧ loop.pc = .ended .returned ∧
    s.system.master.reportsFrom 0 = reportResults (loop.dhtNode.getResults NodeLatency.oneDay) := by
  obtain ⟨s,run,_,finished,healthy,_⟩ := visited
  obtain ⟨loop,here,ended,reports⟩ := (@reports_final plainHeap _ _ _ _ _ _ visitFile (ascii "dummy") 0
    visitWorkload visit_loaded true 3 s run).2 0 (by simp [finished]) (by simp [healthy])
  exact ⟨s,loop,here,ended,reports⟩

theorem visit_adds_up : ∃ (s : Experiment) (final : Nat → Loop), s.loops 0 = some (final 0) ∧
    AddsUp true 1 final s.system.master.resultProcessor := by
  let heap := plainHeap
  obtain ⟨s,run,ended,_,healthy,single,_,small⟩ := visited
  have linked := run_linked _ _ _ _ _ _ (ascii "dummy") visitWorkload true 3 s run
  obtain ⟨final,each,adds⟩ := experiment_adds_up _ _ _ _ _ _ visitFile (ascii "dummy") 0
    visitWorkload visit_loaded true 3 s run NodeLatency.oneDay_inverse ended healthy fun i loop here op => by
      obtain ⟨r,_,place,_⟩ := linked.begun i loop here
      have first : i = 0 := by
        have bound := (List.getElem?_eq_some_iff.mp place).1
        omega
      subst first
      exact small loop here op (by cases op <;> decide)
  exact ⟨s,final,(each 0 (by decide)).1,adds⟩

end Experiment
end Dhtperf
