import Mathlib.Data.List.Perm.Basic
import Mathlib.Data.List.Basic
import Mathlib.Data.List.Range

/-! Interleavings of finitely many numbered lists: logs whose entries carry the number of
the list they come from and keep the order of each list. -/
namespace Dhtperf.Library

variable {α β : Type}

def part (i : Nat) (log : List (Nat × α)) : List α :=
  log.filterMap fun entry => if entry.1 = i then some entry.2 else none

/-- A log that interleaves the first `n` of the lists and nothing else. -/
structure Interleaves (n : Nat) (lists : Nat → List α) (log : List (Nat × α)) : Prop where
  among : ∀ entry ∈ log, entry.1 < n
  each : ∀ i < n, part i log = lists i

theorem part_map (f : α → β) (i : Nat) (log : List (Nat × α)) :
    part i (log.map fun entry => (entry.1,f entry.2)) = (part i log).map f := by
  simp only [part,List.filterMap_map,List.map_filterMap]
  apply List.filterMap_congr
  intro entry _
  by_cases here : entry.1 = i
  · simp [here]
  · simp [here]

theorem part_filter (i : Nat) (log : List (Nat × α)) :
    log.filter (·.1 = i) = (part i log).map fun entry => (i,entry) := by
  induction log with
  | nil => rfl
  | cons entry log ih =>
    by_cases here : entry.1 = i
    · subst here
      simpa [part] using ih
    · simpa [part,here] using ih

theorem Interleaves.map {n : Nat} {lists : Nat → List α} {log : List (Nat × α)}
    (interleaved : Interleaves n lists log) (f : α → β) :
    Interleaves n (fun i => (lists i).map f) (log.map fun entry => (entry.1,f entry.2)) where
  among := by
    intro entry member
    obtain ⟨source,inside,rfl⟩ := List.mem_map.mp member
    exact interleaved.among source inside
  each := by
    intro i bound
    rw [part_map,interleaved.each i bound]

theorem Interleaves.mem {n : Nat} {lists : Nat → List α} {log : List (Nat × α)}
    (interleaved : Interleaves n lists log) (entry : Nat × α) (member : entry ∈ log) :
    entry.1 < n ∧ entry.2 ∈ lists entry.1 := by
  have bound := interleaved.among entry member
  refine ⟨bound,?_⟩
  rw [← interleaved.each entry.1 bound]
  exact List.mem_filterMap.mpr ⟨entry,member,if_pos rfl⟩

private theorem filter_below (n : Nat) (log : List (Nat × α)) :
    (log.filter (·.1 < n)).Perm ((List.range n).flatMap fun i => (part i log).map fun entry => (i,entry)) := by
  induction n with
  | zero => simp
  | succ n ih =>
    rw [List.range_succ,List.flatMap_append,List.flatMap_singleton,← part_filter]
    -- What is below `n + 1` is below `n` or has the number `n`.
    have split := (List.filter_append_perm (·.1 < n) (log.filter (·.1 < n + 1))).symm
    rw [List.filter_filter,List.filter_filter] at split
    have low : (log.filter fun entry => decide (entry.1 < n) && decide (entry.1 < n + 1)) =
        log.filter (·.1 < n) := by
      apply List.filter_congr
      intro entry _
      by_cases below : entry.1 < n
      · simp [below,Nat.lt_succ_of_lt below]
      · simp [below]
    have high : (log.filter fun entry => (!decide (entry.1 < n)) && decide (entry.1 < n + 1)) =
        log.filter (·.1 = n) := by
      apply List.filter_congr
      intro entry _
      rw [Bool.eq_iff_iff]
      simp
      omega
    rw [low,high] at split
    exact split.trans (ih.append_right _)

theorem Interleaves.perm {n : Nat} {lists : Nat → List α} {log : List (Nat × α)}
    (interleaved : Interleaves n lists log) :
    log.Perm ((List.range n).flatMap fun i => (lists i).map fun entry => (i,entry)) := by
  have all : log.filter (·.1 < n) = log :=
    List.filter_eq_self.mpr fun entry member => decide_eq_true (interleaved.among entry member)
  have split := filter_below n log
  rw [all] at split
  refine split.trans (List.Perm.of_eq ?_)
  apply List.flatMap_congr
  intro i member
  rw [interleaved.each i (List.mem_range.mp member)]

/-- When every list has one entry of a kind, the entries of that kind come in the order of
some permutation of the lists. -/
theorem Interleaves.pick {n : Nat} {lists : Nat → List α} {log : List (Nat × α)}
    (interleaved : Interleaves n lists log) (kind : α → Option β) (value : Nat → β)
    (single : ∀ i < n, (lists i).filterMap kind = [value i]) :
    ∃ order : List Nat, order.Perm (List.range n) ∧ (log.map (·.2)).filterMap kind = order.map value := by
  refine ⟨log.filterMap fun entry => (kind entry.2).map fun _ => entry.1,?_,?_⟩
  · refine (interleaved.perm.filterMap _).trans (List.Perm.of_eq ?_)
    rw [List.filterMap_flatMap]
    calc _ = (List.range n).flatMap fun i => [i] := by
          apply List.flatMap_congr
          intro i member
          rw [List.filterMap_map]
          change (lists i).filterMap (fun entry => (kind entry).map fun _ => i) = [i]
          rw [← List.map_filterMap,single i (List.mem_range.mp member)]
          rfl
      _ = List.range n := List.flatMap_singleton' _
  · rw [List.filterMap_map,List.map_filterMap]
    apply List.filterMap_congr
    intro entry member
    obtain ⟨bound,listed⟩ := interleaved.mem entry member
    cases found : kind entry.2 with
    | none => simp [found]
    | some b =>
      have inside : b ∈ (lists entry.1).filterMap kind := List.mem_filterMap.mpr ⟨entry.2,listed,found⟩
      rw [single entry.1 bound,List.mem_singleton] at inside
      simp [found,inside]

end Dhtperf.Library
