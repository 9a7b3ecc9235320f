import Dhtperf.Metrics.Summary
import Mathlib.Algebra.BigOperators.Group.List.Lemmas

/-! What one series of integers leaves in its statistics: every number the object answers
is the one computed at once from the series. -/
namespace Dhtperf
open Library

namespace Statistics

structure Describes (s : Statistics Int Rat) (interval : Int) (xs : List Int) : Prop where
  count : s.count = xs.length
  max : xs ≠ [] → s.max ∈ xs ∧ ∀ x ∈ xs, x ≤ s.max
  min : xs ≠ [] → s.min ∈ xs ∧ ∀ x ∈ xs, s.min ≤ x
  mean : s.mean = average (xs.map (↑))
  frequencies : ∀ bucket, s.frequencyMap[bucket]? = histogram interval xs bucket
  total : (s.frequencyMap.toList.map (·.2)).sum = s.count

theorem series_frequencies (interval : Int) (grouped : interval ≠ 0) (xs : List Int) (bucket : Int) :
    ((make Rat interval).pushAll xs).frequencyMap[bucket]? = histogram interval xs bucket := by
  have start : (make Rat interval).frequencyMap[bucket]? = none ∧ (make Rat interval).frequencyMap.getD bucket 0 = 0 := by
    simp [make]
  rw [pushAll_frequencies _ xs grouped,start.1,start.2,Nat.zero_add]
  rfl

theorem histogram_total (interval : Int) (xs : List Int) (map : Std.TreeMap Int Nat compare)
    (counts : ∀ bucket, map[bucket]? = histogram interval xs bucket) : (map.toList.map (·.2)).sum = xs.length := by
  have quotients (bucket : Int) :
      xs.countP (fun x => decide (x.tdiv interval = bucket)) = (xs.map (·.tdiv interval)).count bucket := by
    rw [List.count,List.countP_map]
    exact List.countP_congr fun x _ => by simp
  have values : map.toList.map (·.2) = (map.toList.map (·.1)).map (xs.map (·.tdiv interval)).count := by
    rw [List.map_map]
    apply List.map_congr_left
    rintro ⟨bucket,value⟩ member
    have found := Std.TreeMap.mem_toList_iff_getElem?_eq_some.mp member
    rw [counts,histogram] at found
    split at found
    next => cases found
    next =>
      rw [Function.comp_apply,← quotients bucket]
      exact (Option.some.inj found).symm
  have keys : (map.toList.map (·.1)).Perm (xs.map (·.tdiv interval)).dedup := by
    apply (List.perm_ext_iff_of_nodup (toList_keys_nodup map) (List.nodup_dedup _)).mpr
    intro bucket
    rw [List.mem_dedup,Std.TreeMap.map_fst_toList_eq_keys,Std.TreeMap.mem_keys,← Std.TreeMap.isSome_getElem?_iff_mem,
      counts,← List.count_pos_iff,← quotients bucket,histogram]
    split
    next none => simp [none]
    next some => simpa using Nat.pos_of_ne_zero some
  rw [values,(keys.map _).sum_eq,List.sum_map_count_dedup_eq_length,List.length_map]

/-- Whatever was pushed, the answers are about it, and its order does not matter. -/
theorem series_described (interval : Int) (grouped : interval ≠ 0) (xs : List Int) :
    ((make Rat interval).pushAll xs).Describes interval xs ∧
      ∀ ys, xs.Perm ys → Same ((make Rat interval).pushAll xs) ((make Rat interval).pushAll ys) := by
  have frequencies := series_frequencies interval grouped xs
  have count : ((make Rat interval).pushAll xs).count = xs.length := by
    rw [pushAll_count]
    exact Nat.zero_add _
  refine ⟨⟨count,?_,?_,?_,frequencies,?_⟩,pushAll_perm interval xs⟩
  · exact fun some => (make_extremes (D := Rat) interval xs some).1
  · exact fun some => (make_extremes (D := Rat) interval xs some).2
  · rw [make_mean,average,List.length_map]
    rfl
  · rw [count]
    exact histogram_total interval xs _ frequencies

theorem signed_series : ((make Rat 10).pushAll [-25,7,-4]).Describes 10 [-25,7,-4] ∧
    ∀ ys, [-25,7,-4].Perm ys → Same ((make Rat 10).pushAll [-25,7,-4]) ((make Rat 10).pushAll ys) :=
  series_described 10 (by decide) [-25,7,-4]

end Statistics
end Dhtperf
