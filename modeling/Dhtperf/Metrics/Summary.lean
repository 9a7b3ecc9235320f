import Dhtperf.Metrics.General
import Mathlib.Data.List.Perm.Basic

/-! What the aggregates stand for: numbers computed at once from all the data of all the
nodes. The pushes of the master, in whatever order they come, arrive at these numbers. -/
namespace Dhtperf
open Library

def average (values : List Rat) : Rat := values.sum / values.length

def least {T : Type} [Min T] [Zero T] (values : List T) : T := values.min?.getD 0

def greatest {T : Type} [Max T] [Zero T] (values : List T) : T := values.max?.getD 0

@[ext] structure LatencySummary where
  count : Nat
  minimum : Int
  maximum : Int
  mean : Rat
  meanOfMeans : Rat
  minMean : Rat
  maxMean : Rat
  frequencies : Int → Option Nat

def nodeMeans (nodes : List (List Int)) : List Rat :=
  (nodes.filter (· ≠ [])).map fun durations => average (durations.map (↑))

def histogram (interval : Int) (durations : List Int) (bucket : Int) : Option Nat :=
  if durations.countP (·.tdiv interval = bucket) = 0 then none
  else some (durations.countP (·.tdiv interval = bucket))

def LatencySummary.of (interval : Int) (nodes : List (List Int)) : LatencySummary where
  count := nodes.flatten.length
  minimum := least nodes.flatten
  maximum := greatest nodes.flatten
  mean := average (nodes.flatten.map (↑))
  meanOfMeans := average (nodeMeans nodes)
  minMean := least (nodeMeans nodes)
  maxMean := greatest (nodeMeans nodes)
  frequencies := histogram interval nodes.flatten

@[ext] structure RateSummary where
  mean : Rat
  minimum : Rat
  maximum : Rat

def nodeRates (nodes : List (Nat × Nat)) : List Rat :=
  (nodes.filter fun node => node.1 + node.2 ≠ 0).map fun node => (node.1 : Rat) / ((node.1 : Rat) + node.2)

def RateSummary.of (nodes : List (Nat × Nat)) : RateSummary :=
  ⟨average (nodeRates nodes),least (nodeRates nodes),greatest (nodeRates nodes)⟩

/-! ### The order of the data does not matter -/

theorem average_perm {first second : List Rat} (perm : first.Perm second) : average first = average second := by
  unfold average
  rw [perm.sum_eq,perm.length_eq]

theorem average_nil : average [] = 0 := by simp [average]

section Extremes
variable {T : Type} [LinearOrder T] [Zero T]

theorem least_perm {first second : List T} (perm : first.Perm second) : least first = least second := by
  unfold least
  congr 1
  apply Option.ext
  intro value
  rw [List.min?_eq_some_iff,List.min?_eq_some_iff,perm.mem_iff]
  exact and_congr_right fun _ => forall_congr' fun other => by rw [perm.mem_iff]

theorem greatest_perm {first second : List T} (perm : first.Perm second) : greatest first = greatest second := by
  unfold greatest
  congr 1
  apply Option.ext
  intro value
  rw [List.max?_eq_some_iff,List.max?_eq_some_iff,perm.mem_iff]
  exact and_congr_right fun _ => forall_congr' fun other => by rw [perm.mem_iff]

variable {D : Type} [Zero D] [Element T D]

theorem make_least (interval : T) (values : List T) :
    ((Statistics.make D interval).pushAll values).min = least values := by
  by_cases none : values = []
  · subst none
    rfl
  · obtain ⟨member,bound⟩ := (Statistics.make_extremes (D := D) interval values none).2
    rw [least,List.min?_eq_some_iff.mpr ⟨member,bound⟩]
    rfl

theorem make_greatest (interval : T) (values : List T) :
    ((Statistics.make D interval).pushAll values).max = greatest values := by
  by_cases none : values = []
  · subst none
    rfl
  · obtain ⟨member,bound⟩ := (Statistics.make_extremes (D := D) interval values none).1
    rw [greatest,List.max?_eq_some_iff.mpr ⟨member,bound⟩]
    rfl

end Extremes

theorem histogram_perm (interval : Int) {first second : List Int} (perm : first.Perm second) :
    histogram interval first = histogram interval second := by
  ext bucket
  unfold histogram
  rw [perm.countP_eq]

theorem LatencySummary.of_perm (interval : Int) {first second : List (List Int)} (perm : first.Perm second) :
    LatencySummary.of interval first = LatencySummary.of interval second := by
  have durations : first.flatten.Perm second.flatten := perm.flatten
  have means : (nodeMeans first).Perm (nodeMeans second) := (perm.filter _).map _
  ext : 1
  · exact durations.length_eq
  · exact least_perm durations
  · exact greatest_perm durations
  · exact average_perm (durations.map _)
  · exact average_perm means
  · exact least_perm means
  · exact greatest_perm means
  · exact histogram_perm interval durations

theorem RateSummary.of_perm {first second : List (Nat × Nat)} (perm : first.Perm second) :
    RateSummary.of first = RateSummary.of second := by
  have rates : (nodeRates first).Perm (nodeRates second) := (perm.filter _).map _
  ext
  · exact average_perm rates
  · exact least_perm rates
  · exact greatest_perm rates

/-! ### What the pushes arrive at -/

structure NodeLatency.Holds (node : NodeLatency Rat) (durations : List Int) : Prop where
  count : node.count = durations.length
  mean : node.meanInMicroseconds = average (durations.map (↑))
  entries : (node.measurements.toList.map (·.2)).Perm durations

theorem NodeLatency.measure_holds (pushes : List (Int × Int)) (distinct : (pushes.map (·.1)).Nodup) :
    (measure pushes : NodeLatency Rat).Holds (pushes.map (·.2)) where
  count := by rw [measure_count,List.length_map]
  mean := by
    have total := Statistics.make_mean (0 : Int) (pushes.map (·.2))
    unfold meanInMicroseconds
    rw [measure_count,(measure_parts pushes).2,total]
    split
    next => simp [average,Statistics.ExactElement.value,Function.comp_def]
    next none => simp [List.length_eq_zero_iff.mp (not_not.mp none),average]
  entries := by
    rw [(measure_parts pushes).1]
    exact (insertAll_fresh pushes distinct).map (·.2)

namespace GeneralLatency

def pushAll (general : GeneralLatency) (nodes : List (NodeLatency Rat)) : GeneralLatency :=
  nodes.foldl push general

def summary (general : GeneralLatency) : LatencySummary where
  count := general.count
  minimum := general.generalMinInMicroseconds
  maximum := general.generalMaxInMicroseconds
  mean := general.meanInMicroseconds
  meanOfMeans := general.meanOfMeansInMicroseconds
  minMean := general.minMeanInMicroseconds
  maxMean := general.maxMeanInMicroseconds
  frequencies := fun bucket => general.getFrequencyMap[bucket]?

/-- The nodes with results, their means and their durations go to three places. -/
structure Parts (start general : GeneralLatency) (nodes : List (NodeLatency Rat)) : Prop where
  listed : general.nodes = start.nodes ++ nodes.filter (·.count ≠ 0)
  means : general.meansStatistics =
    start.meansStatistics.pushAll ((nodes.filter (·.count ≠ 0)).map (·.meanInMicroseconds))
  durations : general.generalStatistics = start.generalStatistics.pushAll
    ((nodes.filter (·.count ≠ 0)).flatMap fun node => node.measurements.toList.map (·.2))

theorem pushAll_parts (general : GeneralLatency) (nodes : List (NodeLatency Rat)) :
    Parts general (general.pushAll nodes) nodes := by
  induction nodes generalizing general with
  | nil => exact ⟨(List.append_nil _).symm,rfl,rfl⟩
  | cons node nodes ih =>
    obtain ⟨listed,means,durations⟩ := ih (general.push node)
    change Parts general ((general.push node).pushAll nodes) (node :: nodes)
    by_cases none : node.count = 0
    · have skipped : general.push node = general := if_pos none
      rw [skipped] at listed means durations ⊢
      have out : (node :: nodes).filter (·.count ≠ 0) = nodes.filter (·.count ≠ 0) :=
        List.filter_cons_of_neg (by simpa using none)
      exact ⟨by rw [out]; exact listed,by rw [out]; exact means,by rw [out]; exact durations⟩
    · have taken : general.push node = _ := if_neg none
      have here : (node :: nodes).filter (·.count ≠ 0) = node :: nodes.filter (·.count ≠ 0) :=
        List.filter_cons_of_pos (by simpa using none)
      rw [taken] at listed means durations ⊢
      refine ⟨?_,?_,?_⟩
      · rw [here,listed,List.append_assoc,List.singleton_append]
      · rw [here,means,List.map_cons,Statistics.pushAll_cons]
      · rw [here,durations,List.flatMap_cons,Statistics.pushAll_append]

structure Values (interval : Int) (s : Statistics Int Rat) (durations : List Int) : Prop where
  count : s.count = durations.length
  minimum : s.min = least durations
  maximum : s.max = greatest durations
  mean : s.mean = average (durations.map (↑))
  frequencies : (fun bucket => s.frequencyMap[bucket]?) = histogram interval durations

theorem statistics_summary (interval : Int) (grouped : interval ≠ 0) (pushed durations : List Int)
    (perm : pushed.Perm durations) : Values interval ((Statistics.make Rat interval).pushAll pushed) durations where
  count := by
    rw [Statistics.pushAll_count,perm.length_eq]
    exact Nat.zero_add _
  minimum := (make_least interval pushed).trans (least_perm perm)
  maximum := (make_greatest interval pushed).trans (greatest_perm perm)
  mean := by
    rw [Statistics.make_mean,perm.length_eq,(perm.map _).sum_eq,average,List.length_map]
    rfl
  frequencies := by
    ext1 bucket
    rw [Statistics.pushAll_frequencies _ _ grouped,← histogram_perm interval perm,histogram]
    simp only [Statistics.make,Element.quotient,Std.TreeMap.getElem?_emptyc,Std.TreeMap.getD_emptyc,Nat.zero_add]
    rfl

theorem means_summary (means : List Rat) :
    ((Statistics.make Rat (0 : Rat)).pushAll means).mean = average means ∧
      ((Statistics.make Rat (0 : Rat)).pushAll means).min = least means ∧
      ((Statistics.make Rat (0 : Rat)).pushAll means).max = greatest means := by
  refine ⟨?_,make_least 0 means,make_greatest 0 means⟩
  rw [Statistics.make_mean,average]
  congr 2
  exact List.map_id means

private theorem getter {T : Type} [Zero T] (general : GeneralLatency) {value summary : T}
    (none : ¬general.nodes.length ≠ 0 → summary = 0) (same : value = summary) :
    (if general.nodes.length ≠ 0 then value else 0) = summary := by
  split
  next => exact same
  next empty => exact (none empty).symm

variable {ρ : Type} (node : ρ → NodeLatency Rat) (durations : ρ → List Int)

private theorem filter_some (records : List ρ) (holds : ∀ r ∈ records, (node r).Holds (durations r)) :
    (records.map node).filter (·.count ≠ 0) = (records.filter fun r => durations r ≠ []).map node := by
  rw [List.filter_map]
  congr 1
  apply List.filter_congr
  intro r member
  rw [Function.comp_apply,(holds r member).count]
  simp

private theorem filter_means (records : List ρ) (holds : ∀ r ∈ records, (node r).Holds (durations r)) :
    ((records.filter fun r => durations r ≠ []).map node).map (·.meanInMicroseconds) =
      nodeMeans (records.map durations) := by
  unfold nodeMeans
  rw [List.filter_map,List.map_map,List.map_map]
  apply List.map_congr_left
  intro r member
  exact (holds r (List.mem_filter.mp member).1).mean

private theorem filter_durations (records : List ρ) (holds : ∀ r ∈ records, (node r).Holds (durations r)) :
    (((records.filter fun r => durations r ≠ []).map node).flatMap
      fun node => node.measurements.toList.map (·.2)).Perm (records.map durations).flatten := by
  induction records with
  | nil => exact List.Perm.refl _
  | cons r records ih =>
    have rest := ih fun r member => holds r (List.mem_cons_of_mem _ member)
    by_cases none : durations r = []
    · rw [List.filter_cons_of_neg (by simpa using none),List.map_cons,List.flatten_cons,none,List.nil_append]
      exact rest
    · rw [List.filter_cons_of_pos (by simpa using none),List.map_cons,List.flatMap_cons,List.map_cons,
        List.flatten_cons]
      exact (holds r (by simp)).entries.append rest

/-- Whatever order the nodes are pushed in, the getters return the summary of their
durations. -/
theorem pushAll_summary (interval : Int) (grouped : interval ≠ 0) (records : List ρ)
    (holds : ∀ r ∈ records, (node r).Holds (durations r)) :
    ((make interval).pushAll (records.map node)).summary = .of interval (records.map durations) := by
  obtain ⟨listed,means,all⟩ := pushAll_parts (make interval) (records.map node)
  rw [filter_some node durations records holds] at listed means all
  rw [filter_means node durations records holds] at means
  have union := filter_durations node durations records holds
  generalize ((records.filter fun r => durations r ≠ []).map node).flatMap
    (fun node => node.measurements.toList.map (·.2)) = pushed at all union
  generalize (make interval).pushAll (records.map node) = general at listed means all
  change general.nodes = [] ++ _ at listed
  have some : general.nodes.length = (nodeMeans (records.map durations)).length := by
    rw [listed,List.nil_append,← filter_means node durations records holds,List.length_map,List.length_map,
      List.length_map]
  -- Without any node that counts, the lists behind the statistics are empty as well.
  have empty : ¬general.nodes.length ≠ 0 → nodeMeans (records.map durations) = [] ∧
      (records.map durations).flatten = [] := by
    intro none
    have short : nodeMeans (records.map durations) = [] := List.length_eq_zero_iff.mp (some ▸ not_not.mp none)
    refine ⟨short,List.flatten_eq_nil_iff.mpr ?_⟩
    unfold nodeMeans at short
    simpa using short
  have values : Values interval general.generalStatistics (records.map durations).flatten := by
    rw [all]
    exact statistics_summary interval grouped pushed _ union
  obtain ⟨meanOfMeans,minMean,maxMean⟩ : _ ∧ _ ∧ _ := means_summary (nodeMeans (records.map durations))
  change general.meansStatistics = (Statistics.make Rat 0).pushAll _ at means
  rw [← means] at meanOfMeans minMean maxMean
  let meanOf (all : List Int) : Rat := average (all.map (↑))
  ext : 1
  · exact getter general (fun none => congrArg List.length (empty none).2) values.count
  · exact getter general (fun none => congrArg least (empty none).2) values.minimum
  · exact getter general (fun none => congrArg greatest (empty none).2) values.maximum
  · exact getter general (fun none => (congrArg meanOf (empty none).2).trans average_nil) values.mean
  · exact getter general (fun none => (congrArg average (empty none).1).trans average_nil) meanOfMeans
  · exact getter general (fun none => congrArg least (empty none).1) minMean
  · exact getter general (fun none => congrArg greatest (empty none).1) maxMean
  · exact values.frequencies

end GeneralLatency

namespace GeneralSuccessRate

def pushAll (general : GeneralSuccessRate) (nodes : List NodeSuccessRate) : GeneralSuccessRate :=
  nodes.foldl push general

def summary (general : GeneralSuccessRate) : RateSummary := ⟨general.mean,general.min,general.max⟩

theorem pushAll_statistics (general : GeneralSuccessRate) (nodes : List NodeSuccessRate) :
    (general.pushAll nodes).statistics =
      general.statistics.pushAll ((nodes.filter (·.count ≠ 0)).map (·.successRate)) := by
  induction nodes generalizing general with
  | nil => rfl
  | cons node nodes ih =>
    apply (ih (general.push node)).trans
    by_cases none : node.count = 0
    · rw [push,if_pos none,List.filter_cons_of_neg (by simpa using none)]
    · rw [push,if_neg none,List.filter_cons_of_pos (by simpa using none)]
      rfl

def counted (attempts : Nat × Nat) : NodeSuccessRate := ⟨attempts.1,attempts.2⟩

private theorem counted_rates (records : List (Nat × Nat)) :
    ((records.map counted).filter (·.count ≠ 0)).map (·.successRate) = nodeRates records := by
  have some (r : Nat × Nat) : (counted r).count ≠ 0 ↔ r.1 + r.2 ≠ 0 := by
    simp only [counted,NodeSuccessRate.count]
    omega
  unfold nodeRates
  rw [List.filter_map,List.map_map]
  have same : (records.filter ((fun node : NodeSuccessRate => decide (node.count ≠ 0)) ∘ counted)) =
      records.filter fun node => node.1 + node.2 ≠ 0 :=
    List.filter_congr fun r _ => decide_eq_decide.mpr (some r)
  rw [same]
  apply List.map_congr_left
  intro r member
  have tried : r.1 + r.2 ≠ 0 := of_decide_eq_true (List.mem_filter.mp member).2
  have nonzero : ((r.2 : Int) + r.1) ≠ 0 := by omega
  change (if (r.2 : Int) + r.1 = 0 then (0 : Rat) else _) = _
  rw [if_neg nonzero]
  push_cast [counted]
  rw [add_comm]

/-- Whatever order the nodes are pushed in, the getters return the summary of their
attempts. -/
theorem pushAll_summary (records : List (Nat × Nat)) :
    (make.pushAll (records.map counted)).summary = .of records := by
  have pushed := pushAll_statistics make (records.map counted)
  rw [counted_rates] at pushed
  obtain ⟨mean,min,max⟩ : _ ∧ _ ∧ _ := GeneralLatency.means_summary (nodeRates records)
  change _ = (Statistics.make Rat 0).pushAll _ at pushed
  have none : ¬(make.pushAll (records.map counted)).statistics.count ≠ 0 → nodeRates records = [] := by
    intro zero
    rw [pushed,Statistics.pushAll_count] at zero
    exact List.length_eq_zero_iff.mp (Nat.add_eq_zero_iff.mp (not_not.mp zero)).2
  rw [← pushed] at mean min max
  have getter {value summary : Rat} (zero : nodeRates records = [] → summary = 0) (same : value = summary) :
      (if (make.pushAll (records.map counted)).statistics.count ≠ 0 then value else 0) = summary := by
    split
    next => exact same
    next empty => exact (zero (none empty)).symm
  ext
  · exact getter (fun empty => (congrArg average empty).trans average_nil) mean
  · exact getter (fun empty => congrArg least empty) min
  · exact getter (fun empty => congrArg greatest empty) max

end GeneralSuccessRate

end Dhtperf
