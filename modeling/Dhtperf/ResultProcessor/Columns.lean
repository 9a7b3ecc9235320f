import Dhtperf.DhtperfMaster.Aggregates
import Dhtperf.ResultProcessor.Processing
import Mathlib.Tactic.Linarith

/-! The order of the columns. One aggregate sees the nodes and another the single
measurements; each node's mean lies between its extremes, and the mean over all the
measurements between the means of the nodes. -/
namespace Dhtperf
open Library

/-! ### Averages between bounds -/

def Between (low high : Rat) (values : List Rat) : Prop := ∀ value ∈ values, low ≤ value ∧ value ≤ high

theorem sum_between {low high : Rat} {values : List Rat} (bounds : Between low high values) :
    low * values.length ≤ values.sum ∧ values.sum ≤ high * values.length := by
  induction values with
  | nil => simp
  | cons value values ih =>
    obtain ⟨here,rest⟩ := List.forall_mem_cons.mp bounds
    obtain ⟨below,above⟩ := ih rest
    rw [List.sum_cons,List.length_cons]
    push_cast
    constructor
    · linarith [here.1]
    · linarith [here.2]

theorem average_of_total {low high : Rat} {values : List Rat} (some : values ≠ [])
    (total : low * values.length ≤ values.sum ∧ values.sum ≤ high * values.length) :
    low ≤ average values ∧ average values ≤ high := by
  have positive : (0 : Rat) < values.length := Nat.cast_pos.mpr (List.length_pos_iff.mpr some)
  exact ⟨(le_div_iff₀ positive).mpr total.1,(div_le_iff₀ positive).mpr total.2⟩

theorem average_between {low high : Rat} {values : List Rat} (some : values ≠ [])
    (bounds : Between low high values) : low ≤ average values ∧ average values ≤ high :=
  average_of_total some (sum_between bounds)

theorem average_flatten_between {low high : Rat} {parts : List (List Rat)} (some : parts.flatten ≠ [])
    (bounds : ∀ part ∈ parts, part ≠ [] → low ≤ average part ∧ average part ≤ high) :
    low ≤ average parts.flatten ∧ average parts.flatten ≤ high := by
  apply average_of_total some
  clear some
  induction parts with
  | nil => simp
  | cons part parts ih =>
    obtain ⟨below,above⟩ := ih fun p member => bounds p (List.mem_cons_of_mem _ member)
    rw [List.flatten_cons,List.sum_append,List.length_append]
    push_cast
    by_cases none : part = []
    · rw [none,List.length_nil,List.sum_nil,Nat.cast_zero,zero_add,zero_add]
      exact ⟨below,above⟩
    · have positive : (0 : Rat) < part.length := Nat.cast_pos.mpr (List.length_pos_iff.mpr none)
      obtain ⟨low_mean,mean_high⟩ := bounds part (by simp) none
      have total_low := (le_div_iff₀ positive).mp low_mean
      have total_high := (div_le_iff₀ positive).mp mean_high
      constructor
      · linarith
      · linarith

section Extremes
variable {T : Type} [LinearOrder T] [Zero T]

theorem least_spec {values : List T} (some : values ≠ []) :
    least values ∈ values ∧ ∀ value ∈ values, least values ≤ value := by
  obtain ⟨value,found⟩ := Option.isSome_iff_exists.mp (List.isSome_min?_iff.mpr some)
  rw [least,found]
  exact List.min?_eq_some_iff.mp found

theorem greatest_spec {values : List T} (some : values ≠ []) :
    greatest values ∈ values ∧ ∀ value ∈ values, value ≤ greatest values := by
  obtain ⟨value,found⟩ := Option.isSome_iff_exists.mp (List.isSome_max?_iff.mpr some)
  rw [greatest,found]
  exact List.max?_eq_some_iff.mp found

end Extremes

theorem extremes_between {values : List Rat} (some : values ≠ []) :
    Between (least values) (greatest values) values :=
  fun value member => ⟨(least_spec some).2 value member,(greatest_spec some).2 value member⟩

/-! ### The columns -/

structure LatencyColumns.Ordered (columns : LatencyColumns) : Prop where
  generalMin_minMean : columns.generalMin ≤ columns.minMean
  minMean_meanOfMeans : columns.minMean ≤ columns.meanOfMeans
  meanOfMeans_maxMean : columns.meanOfMeans ≤ columns.maxMean
  maxMean_generalMax : columns.maxMean ≤ columns.generalMax
  minMean_mean : columns.minMean ≤ columns.mean
  mean_maxMean : columns.mean ≤ columns.maxMean

structure RateColumns.Ordered (columns : RateColumns) : Prop where
  zero_min : 0 ≤ columns.min
  min_mean : columns.min ≤ columns.mean
  mean_max : columns.mean ≤ columns.max
  max_one : columns.max ≤ 1

def LatencySummary.columns (summary : LatencySummary) : LatencyColumns :=
  ⟨summary.minimum,summary.minMean,summary.mean,summary.meanOfMeans,summary.maxMean,summary.maximum⟩

theorem nodeMeans_some {nodes : List (List Int)} (some : nodes.flatten ≠ []) : nodeMeans nodes ≠ [] := by
  intro none
  apply some
  unfold nodeMeans at none
  exact List.flatten_eq_nil_iff.mpr (by simpa using none)

theorem nodeMeans_between {nodes : List (List Int)} (some : nodes.flatten ≠ []) :
    Between (least nodes.flatten : Int) (greatest nodes.flatten : Int) (nodeMeans nodes) := by
  intro mean member
  obtain ⟨durations,listed,rfl⟩ := List.mem_map.mp member
  obtain ⟨inside,tried⟩ := List.mem_filter.mp listed
  apply average_between (fun none => of_decide_eq_true tried (List.map_eq_nil_iff.mp none))
  intro value present
  obtain ⟨duration,measured,rfl⟩ := List.mem_map.mp present
  have all : duration ∈ nodes.flatten := List.mem_flatten.mpr ⟨durations,inside,measured⟩
  exact ⟨Int.cast_le.mpr ((least_spec some).2 duration all),Int.cast_le.mpr ((greatest_spec some).2 duration all)⟩

theorem LatencySummary.of_ordered (interval : Int) {nodes : List (List Int)} (some : nodes.flatten ≠ []) :
    (LatencySummary.of interval nodes).columns.Ordered := by
  have means := nodeMeans_some some
  have within := nodeMeans_between some
  obtain ⟨low,high⟩ := average_between means (extremes_between means)
  have parts : ∀ part ∈ nodes.map (·.map ((↑) : Int → Rat)), part ≠ [] →
      least (nodeMeans nodes) ≤ average part ∧ average part ≤ greatest (nodeMeans nodes) := by
    intro part member tried
    obtain ⟨durations,listed,rfl⟩ := List.mem_map.mp member
    apply extremes_between means
    exact List.mem_map_of_mem (List.mem_filter.mpr
      ⟨listed,decide_eq_true fun none => tried (List.map_eq_nil_iff.mpr none)⟩)
  have all : (nodes.map (·.map ((↑) : Int → Rat))).flatten ≠ [] := by
    rw [← List.map_flatten]
    exact fun none => some (List.map_eq_nil_iff.mp none)
  obtain ⟨mean_low,mean_high⟩ := average_flatten_between all parts
  rw [← List.map_flatten] at mean_low mean_high
  exact ⟨(within _ (least_spec means).1).1,low,high,(within _ (greatest_spec means).1).2,mean_low,mean_high⟩

theorem RateSummary.of_ordered (nodes : List (Nat × Nat)) :
    RateColumns.Ordered ⟨(RateSummary.of nodes).minimum,(RateSummary.of nodes).mean,(RateSummary.of nodes).maximum⟩ := by
  have shares : Between 0 1 (nodeRates nodes) := by
    intro rate member
    obtain ⟨node,_,rfl⟩ := List.mem_map.mp member
    have hits : (0 : Rat) ≤ node.1 := Nat.cast_nonneg _
    have misses : (0 : Rat) ≤ node.2 := Nat.cast_nonneg _
    exact ⟨div_nonneg hits (add_nonneg hits misses),
      div_le_one_of_le₀ (le_add_of_nonneg_right misses) (add_nonneg hits misses)⟩
  by_cases none : nodeRates nodes = []
  · simp only [RateSummary.of,none,average_nil]
    exact ⟨le_refl 0,le_refl 0,le_refl 0,zero_le_one⟩
  · obtain ⟨low,high⟩ := average_between none (extremes_between none)
    exact ⟨(shares _ (least_spec none).1).1,low,high,(shares _ (greatest_spec none).1).2⟩

/-! ### From the measurements to the columns -/

/-- What a node reports: the latencies of an operation, each with the clock reading of its
push, or hits and misses. -/
inductive Measurement
  | latency (op : DhtOperation) (pushes : List (Int × Int))
  | joinRate (hits misses : Nat)
  | getRate (hits misses : Nat)

namespace Measurement

def report (text : PosixTime) : Measurement → Bytes × Bytes
  | .latency op pushes => (ResultProcessor.latencyType op,(NodeLatency.measure pushes : NodeLatency Rat).toString text)
  | .joinRate hits misses => (ascii "JoinSuccessRate",NodeSuccessRate.toString ⟨hits,misses⟩)
  | .getRate hits misses => (ascii "GetSuccessRate",NodeSuccessRate.toString ⟨hits,misses⟩)

/-- The counters are `int64_t`s. -/
def InRange (time duration : Int → Prop) : Measurement → Prop
  | .latency _ pushes => ∀ p ∈ pushes, time p.1 ∧ duration p.2
  | .joinRate hits misses => hits < 2^63 ∧ misses < 2^63
  | .getRate hits misses => hits < 2^63 ∧ misses < 2^63

def pushesOf (op : DhtOperation) : Measurement → Option (List (Int × Int))
  | .latency other pushes => if other = op then some pushes else none
  | _ => none

def joinCounts : Measurement → Option (Nat × Nat)
  | .joinRate hits misses => some (hits,misses)
  | _ => none

def getCounts : Measurement → Option (Nat × Nat)
  | .getRate hits misses => some (hits,misses)
  | _ => none

/-- The node that the master rebuilds, and what it holds: one duration for each time. -/
def rebuilt (pushes : List (Int × Int)) : NodeLatency Rat :=
  .measure (NodeLatency.measure pushes : NodeLatency Rat).measurements.toList

def kept (pushes : List (Int × Int)) : List Int :=
  (NodeLatency.measure pushes : NodeLatency Rat).measurements.toList.map (·.2)

theorem rebuilt_holds (pushes : List (Int × Int)) : (rebuilt pushes).Holds (kept pushes) :=
  NodeLatency.measure_holds _ (toList_keys_nodup _)

theorem kept_some {pushes : List (Int × Int)} (some : pushes ≠ []) : kept pushes ≠ [] := by
  intro none
  obtain ⟨push,rest,rfl⟩ := List.exists_cons_of_ne_nil some
  have present := (insertAll_keys ∅ (push :: rest) push.1).mpr (Or.inr (by simp))
  rw [← (NodeLatency.measure_parts (D := Rat) (push :: rest)).1,List.map_eq_nil_iff.mp none] at present
  cases present

variable (text : PosixTime) {time duration : Int → Prop} (inverse : text.Inverse time duration)

theorem latencyType_injective (first second : DhtOperation)
    (same : ResultProcessor.latencyType first = ResultProcessor.latencyType second) : first = second := by
  revert same
  cases first <;> cases second <;> decide

theorem latencyType_rates (op : DhtOperation) :
    ResultProcessor.latencyType op ≠ ascii "JoinSuccessRate" ∧ ResultProcessor.latencyType op ≠ ascii "GetSuccessRate" := by
  cases op <;> decide

include inverse

theorem read_latency {op : DhtOperation} {pushes : List (Int × Int)} (range : InRange time duration (.latency op pushes)) :
    (NodeLatency.ofString text (report text (.latency op pushes)).2 : Except Fault (NodeLatency Rat)) =
      .ok (rebuilt pushes) :=
  NodeLatency.ofString_toString text inverse _ fun entry member =>
    range entry (NodeLatency.measure_entries (D := Rat) pushes entry member)

theorem pushResult_ok (results : ResultProcessor) (measurement : Measurement)
    (range : measurement.InRange time duration) :
    ∃ after, results.pushResult text (measurement.report text).1 (measurement.report text).2 = .ok after := by
  cases measurement with
  | latency op pushes =>
    have read := read_latency text inverse range
    have pushed : ∃ after, results.pushLatency text op (report text (.latency op pushes)).2 = .ok after := by
      rw [ResultProcessor.pushLatency,read]
      exact ⟨_,rfl⟩
    cases op with
    | join => exact pushed
    | leave => exact pushed
    | put => exact pushed
    | get => exact pushed
  | joinRate hits misses => exact ⟨_,rfl⟩
  | getRate hits misses => exact ⟨_,rfl⟩

theorem latencies_rebuilt (op : DhtOperation) (collection : List Measurement)
    (range : ∀ measurement ∈ collection, measurement.InRange time duration) :
    ResultProcessor.latencies text op (collection.map (report text)) =
      (collection.filterMap (pushesOf op)).map rebuilt := by
  rw [ResultProcessor.latencies,List.filterMap_map,List.map_filterMap]
  apply List.filterMap_congr
  intro measurement member
  cases measurement with
  | latency other pushes =>
    have read := read_latency text inverse (range _ member)
    have type : (report text (.latency other pushes)).1 = ResultProcessor.latencyType other := rfl
    rw [Function.comp_apply,type,read,pushesOf]
    by_cases same : other = op
    · rw [same,if_pos rfl,if_pos rfl]
      rfl
    · rw [if_neg fun types => same (latencyType_injective _ _ types),if_neg same]
      rfl
  | joinRate hits misses => exact if_neg (latencyType_rates op).1.symm
  | getRate hits misses => exact if_neg (latencyType_rates op).2.symm

omit inverse in
private theorem rates_picked (type : Bytes) (counts : Measurement → Option (Nat × Nat)) (collection : List Measurement)
    (picked : ∀ measurement ∈ collection, (if (measurement.report text).1 = type then
      some (NodeSuccessRate.ofString (measurement.report text).2) else none) =
        (counts measurement).map GeneralSuccessRate.counted) :
    ResultProcessor.rates type (collection.map (report text)) =
      (collection.filterMap counts).map GeneralSuccessRate.counted := by
  rw [ResultProcessor.rates,List.filterMap_map,List.map_filterMap]
  exact List.filterMap_congr picked

omit inverse in
theorem joinRates_counted (collection : List Measurement)
    (range : ∀ measurement ∈ collection, measurement.InRange time duration) :
    ResultProcessor.rates (ascii "JoinSuccessRate") (collection.map (report text)) =
      (collection.filterMap joinCounts).map GeneralSuccessRate.counted := by
  apply rates_picked
  intro measurement member
  cases measurement with
  | latency op pushes => exact if_neg (latencyType_rates op).1
  | joinRate hits misses =>
    rw [report,if_pos rfl,NodeSuccessRate.ofString_toString hits misses (range _ member)]
    rfl
  | getRate hits misses =>
    have different : ascii "GetSuccessRate" ≠ ascii "JoinSuccessRate" := by decide
    rw [report,if_neg different]
    rfl

omit inverse in
theorem getRates_counted (collection : List Measurement)
    (range : ∀ measurement ∈ collection, measurement.InRange time duration) :
    ResultProcessor.rates (ascii "GetSuccessRate") (collection.map (report text)) =
      (collection.filterMap getCounts).map GeneralSuccessRate.counted := by
  apply rates_picked
  intro measurement member
  cases measurement with
  | latency op pushes => exact if_neg (latencyType_rates op).2
  | joinRate hits misses =>
    have different : ascii "JoinSuccessRate" ≠ ascii "GetSuccessRate" := by decide
    rw [report,if_neg different]
    rfl
  | getRate hits misses =>
    rw [report,if_pos rfl,NodeSuccessRate.ofString_toString hits misses (range _ member)]
    rfl

end Measurement

namespace ResultProcessor
variable (text : PosixTime) {time duration : Int → Prop} (inverse : text.Inverse time duration)

def reported (collection : List (Nat × Measurement)) : List (Nat × Bytes × Bytes) :=
  collection.map fun entry => (entry.1,entry.2.report text)

include inverse in
theorem reported_ok (start : ResultProcessor) (collection : List (Nat × Measurement))
    (range : ∀ entry ∈ collection, entry.2.InRange time duration) :
    ∃ results, DhtperfMaster.foldReports text start (reported text collection) = .ok results := by
  induction collection generalizing start with
  | nil => exact ⟨start,rfl⟩
  | cons entry collection ih =>
    obtain ⟨middle,here⟩ := entry.2.pushResult_ok text inverse start (range entry (by simp))
    obtain ⟨results,rest⟩ := ih middle fun e member => range e (List.mem_cons_of_mem _ member)
    refine ⟨results,?_⟩
    simp only [DhtperfMaster.foldReports,reported,List.map_cons,List.foldlM_cons,here]
    exact rest

include inverse in
/-- Whatever the nodes have measured and in whatever order they report, the columns are
ordered: those of an operation as soon as one measurement of it was reported. -/
theorem columns_ordered (dhtType : Bytes) (lowLatency : Bool) (collection : List (Nat × Measurement))
    (range : ∀ entry ∈ collection, entry.2.InRange time duration) :
    ∃ results, DhtperfMaster.foldReports text (make dhtType lowLatency) (reported text collection) = .ok results ∧
      (∀ op, (∃ entry ∈ collection, ∃ pushes, entry.2 = .latency op pushes ∧ pushes ≠ []) →
        (processLatency (results.latency op)).columns.Ordered) ∧
      (processSuccessRate results.joinSuccessRate).Ordered ∧ (processSuccessRate results.getSuccessRate).Ordered := by
  obtain ⟨results,ok⟩ := reported_ok text inverse (make dhtType lowLatency) collection range
  have pushed := foldReports_pushed text _ results _ ok
  have reports : (reported text collection).map (·.2) = (collection.map (·.2)).map (Measurement.report text) := by
    rw [reported,List.map_map,List.map_map]
    rfl
  rw [reports] at pushed
  have inside : ∀ measurement ∈ collection.map (·.2), measurement.InRange time duration := by
    intro measurement member
    obtain ⟨entry,listed,rfl⟩ := List.mem_map.mp member
    exact range entry listed
  have joins := Measurement.joinRates_counted text _ inside
  have gets := Measurement.getRates_counted text _ inside
  refine ⟨results,ok,?_,?_,?_⟩
  · rintro op ⟨entry,listed,pushes,same,some⟩
    have summary := GeneralLatency.pushAll_summary Measurement.rebuilt Measurement.kept (interval lowLatency op)
      (interval_nonzero lowLatency op) ((collection.map (·.2)).filterMap (Measurement.pushesOf op))
      fun pushes _ => Measurement.rebuilt_holds pushes
    rw [← Measurement.latencies_rebuilt text inverse op _ inside,← make_latency dhtType,← pushed.latency op] at summary
    change (results.latency op).summary.columns.Ordered
    rw [summary]
    apply LatencySummary.of_ordered
    intro none
    have picked : pushes ∈ (collection.map (·.2)).filterMap (Measurement.pushesOf op) :=
      List.mem_filterMap.mpr ⟨entry.2,List.mem_map_of_mem listed,by rw [same]; exact if_pos rfl⟩
    exact Measurement.kept_some some (List.flatten_eq_nil_iff.mp none _ (List.mem_map_of_mem picked))
  · have summary := GeneralSuccessRate.pushAll_summary ((collection.map (·.2)).filterMap Measurement.joinCounts)
    rw [← joins] at summary
    have rates := RateSummary.of_ordered ((collection.map (·.2)).filterMap Measurement.joinCounts)
    rw [← summary] at rates
    rw [pushed.joins]
    exact rates
  · have summary := GeneralSuccessRate.pushAll_summary ((collection.map (·.2)).filterMap Measurement.getCounts)
    rw [← gets] at summary
    have rates := RateSummary.of_ordered ((collection.map (·.2)).filterMap Measurement.getCounts)
    rw [← summary] at rates
    rw [pushed.gets]
    exact rates

/-- Two pushes of one node share a clock reading. -/
theorem two_reports_ordered : ∃ results, DhtperfMaster.foldReports NodeLatency.oneDay (make (ascii "DummyDht") true)
    (reported NodeLatency.oneDay [(1,.latency .get [(5,100),(5,2000000),(7,100)]),(0,.getRate 3 1)]) = .ok results ∧
      (processLatency (results.latency .get)).columns.Ordered ∧
      (processSuccessRate results.getSuccessRate).Ordered := by
  obtain ⟨results,ok,latencies,_,rates⟩ := columns_ordered NodeLatency.oneDay NodeLatency.oneDay_inverse
    (ascii "DummyDht") true [(1,.latency .get [(5,100),(5,2000000),(7,100)]),(0,.getRate 3 1)]
    (List.forall_mem_cons.mpr ⟨show ∀ p ∈ [(5,100),(5,2000000),(7,100)], _ from by decide,
      List.forall_mem_cons.mpr ⟨show 3 < 2^63 ∧ 1 < 2^63 from by decide,List.forall_mem_nil _⟩⟩)
  exact ⟨results,ok,latencies .get ⟨_,List.mem_cons_self,_,rfl,List.cons_ne_nil _ _⟩,rates⟩

end ResultProcessor
end Dhtperf
