import Mathlib.Data.List.Perm.Basic
import Mathlib.Data.List.Induction
import Mathlib.Data.List.Perm.Subperm
import Mathlib.Data.List.Sort
import Std.Data.TreeMap.Lemmas

/-! Ordered maps filled by insertion: which entries a sequence of insertions leaves,
and that a map is rebuilt by inserting its entries in order. -/
namespace Dhtperf.Library

variable {κ β : Type} [Ord κ]

def insertAll (map : Std.TreeMap κ β compare) (entries : List (κ × β)) : Std.TreeMap κ β compare :=
  entries.foldl (fun map entry => map.insert entry.1 entry.2) map

variable [Std.TransOrd κ] [Std.LawfulEqOrd κ]

theorem insert_fresh [BEq κ] [LawfulBEq κ] (map : Std.TreeMap κ β compare) (key : κ) (value : β)
    (fresh : ∀ entry ∈ map.toList, entry.1 ≠ key) :
    (map.insert key value).toList.Perm ((key,value) :: map.toList) := by
  have perm := Std.TreeMap.toList_insert_perm (t := map) (k := key) (v := value)
  have same : map.toList.filter (fun x => decide ¬(key == x.1) = true) = map.toList := by
    rw [List.filter_eq_self]
    intro entry member
    have different := fresh entry member
    simpa [beq_iff_eq] using Ne.symm different
  rwa [same] at perm

omit [Std.LawfulEqOrd κ] in
theorem ordered_unique {first second : List (κ × β)} (perm : first.Perm second)
    (left : first.Pairwise fun a b => compare a.1 b.1 = .lt)
    (right : second.Pairwise fun a b => compare a.1 b.1 = .lt) : first = second := by
  apply perm.eq_of_pairwise _ left right
  intro a b _ _ below above
  have reversed := Std.OrientedOrd.eq_swap (a := b.1) (b := a.1)
  rw [below,above] at reversed
  cases reversed

omit [Std.TransOrd κ] [Std.LawfulEqOrd κ] in
theorem insertAll_append (map : Std.TreeMap κ β compare) (first second : List (κ × β)) :
    insertAll map (first ++ second) = insertAll (insertAll map first) second := by
  simp [insertAll]

theorem insertAll_fresh [DecidableEq κ] (entries : List (κ × β)) (distinct : (entries.map (·.1)).Nodup) :
    (insertAll ∅ entries).toList.Perm entries := by
  induction entries using List.reverseRecOn with
  | nil => exact List.Perm.refl _
  | append_singleton entries entry ih =>
    rw [List.map_append,List.nodup_append] at distinct
    have earlier := ih distinct.1
    have fresh : ∀ x ∈ (insertAll ∅ entries).toList, x.1 ≠ entry.1 := by
      intro x member
      exact distinct.2.2 x.1 (List.mem_map_of_mem (earlier.subset member)) entry.1 (by simp)
    rw [insertAll_append]
    have added := insert_fresh (insertAll ∅ entries) entry.1 entry.2 fresh
    exact added.trans ((earlier.cons entry).trans (List.perm_append_singleton entry entries).symm)

theorem insertAll_ordered [DecidableEq κ] (entries : List (κ × β))
    (ordered : entries.Pairwise fun a b => compare a.1 b.1 = .lt) :
    (insertAll ∅ entries).toList = entries := by
  have distinct : (entries.map (·.1)).Nodup := by
    rw [List.Nodup,List.pairwise_map]
    apply ordered.imp
    intro a b below same
    rw [same,Std.ReflOrd.compare_self] at below
    cases below
  exact ordered_unique (insertAll_fresh entries distinct) Std.TreeMap.ordered_keys_toList ordered

theorem insertAll_keys (map : Std.TreeMap κ β compare) (entries : List (κ × β)) (key : κ) :
    key ∈ (insertAll map entries).toList.map (·.1) ↔
      key ∈ map.toList.map (·.1) ∨ key ∈ entries.map (·.1) := by
  simp only [Std.TreeMap.map_fst_toList_eq_keys,Std.TreeMap.mem_keys]
  induction entries generalizing map with
  | nil => simp [insertAll]
  | cons entry entries ih =>
    have tail := ih (map.insert entry.1 entry.2)
    simp only [insertAll,List.foldl_cons,List.map_cons,List.mem_cons] at tail ⊢
    rw [tail,Std.TreeMap.mem_insert,Std.LawfulEqOrd.compare_eq_iff_eq]
    tauto

theorem insertAll_subset [DecidableEq κ] (entries : List (κ × β)) (entry : κ × β)
    (member : entry ∈ (insertAll ∅ entries).toList) : entry ∈ entries := by
  induction entries using List.reverseRecOn with
  | nil => exact member
  | append_singleton entries last ih =>
    rw [insertAll_append] at member
    have inserted : entry ∈ ((insertAll ∅ entries).insert last.1 last.2).toList := member
    have either := (Std.TreeMap.toList_insert_perm).subset inserted
    rcases List.mem_cons.mp either with same | kept
    · simp [same]
    · exact List.mem_append_left _ (ih (List.mem_filter.mp kept).1)

theorem toList_keys_nodup (map : Std.TreeMap κ β compare) : (map.toList.map (·.1)).Nodup := by
  rw [List.Nodup,List.pairwise_map]
  apply Std.TreeMap.distinct_keys_toList.imp
  intro a b different same
  exact different (by rw [same,Std.ReflOrd.compare_self])

/-- A filled map is as large as the insertions only when all keys were distinct. -/
theorem insertAll_full [DecidableEq κ] (entries : List (κ × β))
    (full : (insertAll ∅ entries).toList.length = entries.length) : (entries.map (·.1)).Nodup := by
  have keys := toList_keys_nodup (insertAll ∅ entries)
  have inside : (insertAll ∅ entries).toList.map (·.1) ⊆ entries.map (·.1) := by
    intro key member
    simpa using (insertAll_keys ∅ entries key).mp member
  have perm := (List.subperm_of_subset keys inside).perm_of_length_le (by simp only [List.length_map,full,le_refl])
  exact perm.nodup_iff.mp keys

end Dhtperf.Library
