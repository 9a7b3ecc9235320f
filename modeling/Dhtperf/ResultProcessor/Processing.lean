import Dhtperf.Metrics.Summary
import Dhtperf.ResultProcessor

/-! What the master prints and writes when a run has ended: for each operation the columns of
its latencies and the table of their distribution, then the success rates and the numbers of
nodes. Opening, aligning and rounding are left to the streams; the numbers are exact. -/
namespace Dhtperf
open Library

/-- A quotient of two `double`s, none where the divisor is zero. -/
def quotient (dividend divisor : Rat) : Option Rat :=
  if divisor = 0 then none else some (dividend / divisor)

structure LatencyColumns where
  generalMin : Int
  minMean : Rat
  mean : Rat
  meanOfMeans : Rat
  maxMean : Rat
  generalMax : Int

/-- A row of the table: a bound in milliseconds and the share of the latencies below it. -/
structure CdfRow where
  range : Int
  cdf : Option Rat
  deriving DecidableEq

structure LatencyOutput where
  count : Nat
  columns : LatencyColumns
  table : List CdfRow

structure RateColumns where
  min : Rat
  mean : Rat
  max : Rat

namespace ResultProcessor

def latencyColumns (latency : GeneralLatency) : LatencyColumns where
  generalMin := latency.generalMinInMicroseconds
  minMean := latency.minMeanInMicroseconds
  mean := latency.meanInMicroseconds
  meanOfMeans := latency.meanOfMeansInMicroseconds
  maxMean := latency.maxMeanInMicroseconds
  generalMax := latency.generalMaxInMicroseconds

/-- The loop over the buckets, with the number of turns left. -/
def cdfLoop (interval : Int) (total : Rat) : Nat → Nat → Std.TreeMap Int Nat compare → Int → List CdfRow
  | 0,_,_,_ => []
  | turns+1,i,frequencyMap,accumulated =>
    -- `operator[]` inserts a zero where there is no such bucket.
    let frequencyMap := frequencyMap.insertIfNew i 0
    let accumulated := accumulated + frequencyMap.getD i 0
    ⟨((i + 1) * interval).tdiv 1000,quotient accumulated total⟩ ::
      cdfLoop interval total turns (i+1) frequencyMap accumulated

def cdfRows : Nat := 30

def cdfTable (latency : GeneralLatency) : List CdfRow :=
  ⟨0,some 0⟩ :: cdfLoop latency.generalStatistics.frequencyMapInterval latency.count cdfRows 0
    latency.getFrequencyMap 0

def processLatency (latency : GeneralLatency) : LatencyOutput :=
  ⟨latency.count,latencyColumns latency,cdfTable latency⟩

def processSuccessRate (successRate : GeneralSuccessRate) : RateColumns :=
  ⟨successRate.min,successRate.mean,successRate.max⟩

def processNodesStatus (results : ResultProcessor) : NodesStatus := results.nodesStatus

def process (results : ResultProcessor) : List LatencyOutput × List RateColumns × NodesStatus :=
  ([processLatency results.joinLatency,processLatency results.leaveLatency,
    processLatency results.putLatency,processLatency results.getLatency],
   [processSuccessRate results.joinSuccessRate,processSuccessRate results.getSuccessRate],
   results.processNodesStatus)

/-! ### The distribution -/

def fractionBelow (latencies : List Int) (bound : Int) : Rat :=
  (latencies.countP (· < bound) : Rat) / latencies.length

theorem quotient_below (latencies : List Int) (some : latencies ≠ []) (bound : Int) :
    quotient (latencies.countP (· < bound) : Rat) latencies.length = Option.some (fractionBelow latencies bound) := by
  rw [quotient,if_neg]
  · rfl
  · exact Nat.cast_ne_zero.mpr (List.length_pos_iff.mpr some).ne'

theorem fractionBelow_bounds (latencies : List Int) (bound : Int) :
    0 ≤ fractionBelow latencies bound ∧ fractionBelow latencies bound ≤ 1 :=
  ⟨div_nonneg (Nat.cast_nonneg _) (Nat.cast_nonneg _),
    div_le_one_of_le₀ (Nat.cast_le.mpr List.countP_le_length) (Nat.cast_nonneg _)⟩

theorem fractionBelow_mono (latencies : List Int) {first second : Int} (le : first ≤ second) :
    fractionBelow latencies first ≤ fractionBelow latencies second := by
  apply div_le_div_of_nonneg_right _ (Nat.cast_nonneg _)
  apply Nat.cast_le.mpr
  apply List.countP_mono_left
  intro x _ below
  simp only [decide_eq_true_eq] at below ⊢
  omega

theorem bucket_iff {interval x : Int} (positive : 0 < interval) (nonneg : 0 ≤ x) (i : Nat) :
    x.tdiv interval = i ↔ i * interval ≤ x ∧ x < (i + 1) * interval := by
  rw [Int.tdiv_eq_ediv_of_nonneg nonneg]
  constructor
  · intro same
    rw [← same]
    exact ⟨Int.ediv_mul_le x positive.ne',Int.lt_ediv_add_one_mul_self x positive⟩
  · rintro ⟨low,high⟩
    apply le_antisymm
    · exact Int.lt_add_one_iff.mp (Int.ediv_lt_of_lt_mul positive high)
    · exact Int.le_ediv_of_mul_le positive low

theorem countP_bucket {interval : Int} (positive : 0 < interval) (latencies : List Int)
    (nonneg : ∀ x ∈ latencies, 0 ≤ x) (i : Nat) :
    latencies.countP (· < ((i + 1 : Nat) : Int) * interval) =
      latencies.countP (· < (i : Int) * interval) + latencies.countP (·.tdiv interval = (i : Int)) := by
  induction latencies with
  | nil => rfl
  | cons x latencies ih =>
    have here := bucket_iff positive (nonneg x (by simp)) i
    have rest := ih fun y member => nonneg y (List.mem_cons_of_mem _ member)
    have next : ((i + 1 : Nat) : Int) * interval = i * interval + interval := by
      push_cast
      ring
    have wider : ((i : Int) + 1) * interval = i * interval + interval := by ring
    rw [wider] at here
    rw [next] at rest ⊢
    simp only [List.countP_cons,rest,here,decide_eq_true_eq]
    split <;> split <;> split <;> omega

/-- The invariant of the loop: the buckets before the turn are in the sum, and the map
still counts those from the turn on. -/
theorem cdfLoop_eq {interval : Int} (positive : 0 < interval) (latencies : List Int)
    (nonneg : ∀ x ∈ latencies, 0 ≤ x) (total : Rat) (turns i : Nat) (frequencyMap : Std.TreeMap Int Nat compare)
    (counts : ∀ bucket, frequencyMap.getD bucket 0 = latencies.countP (·.tdiv interval = bucket)) :
    cdfLoop interval total turns i frequencyMap (latencies.countP (· < (i : Int) * interval)) =
      (List.range' i turns).map fun i => ⟨(((i + 1 : Nat) : Int) * interval).tdiv 1000,
        quotient (latencies.countP (· < ((i + 1 : Nat) : Int) * interval) : Rat) total⟩ := by
  induction turns generalizing i frequencyMap with
  | zero => rfl
  | succ turns ih =>
    have inserted (bucket : Int) : (frequencyMap.insertIfNew (i : Int) 0).getD bucket 0 =
        latencies.countP (·.tdiv interval = bucket) := by
      rw [Std.TreeMap.getD_insertIfNew]
      split
      next new =>
        obtain ⟨same,missing⟩ := new
        rw [← counts bucket,← Std.LawfulEqCmp.eq_of_compare same,Std.TreeMap.getD_eq_fallback missing]
      next => exact counts bucket
    have accumulated : ((latencies.countP (· < (i : Int) * interval) : Int) +
        ((frequencyMap.insertIfNew (i : Int) 0).getD (i : Int) 0 : Int)) =
          (latencies.countP (· < ((i + 1 : Nat) : Int) * interval) : Int) := by
      rw [inserted,countP_bucket positive latencies nonneg i]
      push_cast
      rfl
    rw [cdfLoop,List.range'_succ,List.map_cons]
    simp only [accumulated,ih (i+1) _ inserted]
    congr 2

end ResultProcessor

namespace GeneralLatency

def latencies (series : List (List (Int × Int))) : List Int :=
  series.flatMap fun pushes => (NodeLatency.measure pushes : NodeLatency Rat).measurements.toList.map (·.2)

def measured (interval : Int) (series : List (List (Int × Int))) : GeneralLatency :=
  (make interval).pushAll (series.map .measure)

theorem measured_listed (interval : Int) (series : List (List (Int × Int))) :
    (measured interval series).nodes = (series.filter (· ≠ [])).map .measure := by
  rw [measured,(pushAll_parts (make interval) _).listed,List.filter_map]
  have same : series.filter ((fun node : NodeLatency Rat => decide (node.count ≠ 0)) ∘ NodeLatency.measure) =
      series.filter (· ≠ []) := by
    apply List.filter_congr
    intro pushes _
    rw [Function.comp_apply,NodeLatency.measure_count]
    simp
  rw [same]
  rfl

theorem latencies_filter (series : List (List (Int × Int))) :
    latencies (series.filter (· ≠ [])) = latencies series := by
  induction series with
  | nil => rfl
  | cons pushes series ih =>
    by_cases none : pushes = []
    · rw [List.filter_cons_of_neg (by simpa using none),ih,latencies,latencies,List.flatMap_cons,none]
      rfl
    · rw [List.filter_cons_of_pos (by simpa using none)]
      exact congrArg (_ ++ ·) ih

theorem measured_statistics (interval : Int) (series : List (List (Int × Int))) :
    (measured interval series).generalStatistics = (Statistics.make Rat interval).pushAll (latencies series) := by
  have all := (pushAll_parts (make interval) (series.map .measure)).durations
  have listed := (pushAll_parts (make interval) (series.map .measure)).listed
  have nodes : (series.map .measure).filter (fun node : NodeLatency Rat => decide (node.count ≠ 0)) =
      (series.filter (· ≠ [])).map .measure := by
    rw [← measured_listed interval series]
    exact listed.symm
  rw [nodes,List.flatMap_map] at all
  rw [← latencies_filter]
  exact all

theorem measured_count (interval : Int) (series : List (List (Int × Int))) :
    (measured interval series).count = (latencies series).length := by
  have pushed : (measured interval series).generalStatistics.count = (latencies series).length := by
    rw [measured_statistics,Statistics.pushAll_count]
    exact Nat.zero_add _
  rw [count,pushed,measured_listed]
  split
  next => rfl
  next none =>
    rw [← latencies_filter,List.map_eq_nil_iff.mp (List.length_eq_zero_iff.mp (not_not.mp none))]
    rfl

theorem pushAll_interval (s : Statistics Int Rat) (values : List Int) :
    (s.pushAll values).frequencyMapInterval = s.frequencyMapInterval := by
  induction values generalizing s with
  | nil => rfl
  | cons x values ih => exact ih (s.push x)

theorem measured_buckets {interval : Int} (grouped : interval ≠ 0) (series : List (List (Int × Int))) (bucket : Int) :
    (measured interval series).getFrequencyMap.getD bucket 0 =
      (latencies series).countP (·.tdiv interval = bucket) := by
  have found := Statistics.pushAll_frequencies (Statistics.make Rat interval) (latencies series) grouped bucket
  rw [getFrequencyMap,measured_statistics,Std.TreeMap.getD_eq_getD_getElem?,found]
  simp only [Statistics.make,Element.quotient,Std.TreeMap.getElem?_emptyc,Std.TreeMap.getD_emptyc,Nat.zero_add]
  split
  next none => exact none.symm
  next => rfl

end GeneralLatency

namespace ResultProcessor

/-- A table is the distribution of some latencies: row `i` is the share of those smaller
than `(i+1) * interval`. -/
structure Distribution (interval : Int) (latencies : List Int) (table : List CdfRow) : Prop where
  rows : table = ⟨0,some 0⟩ :: (List.range cdfRows).map fun i =>
    ⟨(((i + 1 : Nat) : Int) * interval).tdiv 1000,
      some (fractionBelow latencies (((i + 1 : Nat) : Int) * interval))⟩
  ordered : table.Pairwise fun earlier later => ∀ x ∈ earlier.cdf, ∀ y ∈ later.cdf, x ≤ y
  bounded : ∀ row ∈ table, ∃ x, row.cdf = some x ∧ 0 ≤ x ∧ x ≤ 1

theorem distribution_of_rows {interval : Int} (positive : 0 < interval) (latencies : List Int) (table : List CdfRow)
    (rows : table = ⟨0,some 0⟩ :: (List.range cdfRows).map fun i =>
      ⟨(((i + 1 : Nat) : Int) * interval).tdiv 1000,
        some (fractionBelow latencies (((i + 1 : Nat) : Int) * interval))⟩) :
    Distribution interval latencies table where
  rows := rows
  ordered := by
    rw [rows,List.pairwise_cons,List.pairwise_map]
    constructor
    · intro row member x first y later
      obtain ⟨i,_,rfl⟩ := List.mem_map.mp member
      cases first
      cases later
      exact (fractionBelow_bounds latencies _).1
    · apply List.pairwise_lt_range.imp
      intro i j before x first y later
      cases first
      cases later
      apply fractionBelow_mono
      exact Int.mul_le_mul_of_nonneg_right (by omega) positive.le
  bounded := by
    rw [rows]
    intro row member
    rcases List.mem_cons.mp member with rfl | member
    · exact ⟨0,rfl,le_refl 0,zero_le_one⟩
    · obtain ⟨i,_,rfl⟩ := List.mem_map.mp member
      exact ⟨_,rfl,fractionBelow_bounds latencies _⟩

/-- The table that is written is the distribution of all the latencies of all the nodes. -/
theorem processLatency_distribution (interval : Int) (positive : 0 < interval) (series : List (List (Int × Int)))
    (nonneg : ∀ latency ∈ GeneralLatency.latencies series, 0 ≤ latency)
    (some : GeneralLatency.latencies series ≠ []) :
    Distribution interval (GeneralLatency.latencies series)
      (processLatency (GeneralLatency.measured interval series)).table := by
  apply distribution_of_rows positive
  have start : ((GeneralLatency.latencies series).countP (· < ((0 : Nat) : Int) * interval) : Int) = 0 := by
    have none : (GeneralLatency.latencies series).countP (· < ((0 : Nat) : Int) * interval) = 0 := by
      apply List.countP_eq_zero.mpr
      intro x member
      have here := nonneg x member
      simpa using here
    rw [none]
    rfl
  have loop := cdfLoop_eq positive (GeneralLatency.latencies series) nonneg
    (GeneralLatency.measured interval series).count cdfRows 0 _
    (GeneralLatency.measured_buckets positive.ne' series)
  rw [start] at loop
  have width : (GeneralLatency.measured interval series).generalStatistics.frequencyMapInterval = interval := by
    rw [GeneralLatency.measured_statistics,GeneralLatency.pushAll_interval]
    rfl
  change cdfTable _ = _
  rw [cdfTable,width,loop,GeneralLatency.measured_count,← List.range_eq_range']
  congr 1
  apply List.map_congr_left
  intro i _
  rw [quotient_below _ some]

theorem two_nodes_distribution : Distribution 10 (GeneralLatency.latencies [[(5,3),(6,40)],[],[(2,10)]])
    (processLatency (GeneralLatency.measured 10 [[(5,3),(6,40)],[],[(2,10)]])).table :=
  processLatency_distribution 10 (by decide) [[(5,3),(6,40)],[],[(2,10)]] (by decide) (by decide)

end ResultProcessor
end Dhtperf
