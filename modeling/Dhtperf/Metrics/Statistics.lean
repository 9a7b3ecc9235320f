import Dhtperf.Basic
import Dhtperf.Library.FloatingPoint
import Mathlib.Algebra.BigOperators.Group.List.Basic
import Mathlib.Algebra.Order.Ring.Rat
import Mathlib.Tactic.FieldSimp
import Mathlib.Tactic.Ring
import Std.Data.TreeMap.Lemmas

/-! Running statistics. The element type and the number type of the mean are the
template parameter and `double`. Results that hold in exact arithmetic only are about
rational means; those that name no number type hold of `Double` too. -/
namespace Dhtperf
open Library

/-- What `Statistics<T>::push` computes in the element type and in `double`. -/
class Element (T D : Type) where
  quotient : T → T → T
  /-- `mean + (element - mean) / (double) count`. -/
  corrected : D → T → Nat → D

/-- Integers divide with truncation. -/
instance : Element Int Rat :=
  ⟨Int.tdiv,fun mean element count => mean + ((element : Rat) - mean) / (count : Rat)⟩

/-- 53 binary digits. -/
abbrev Double := FloatFormat.Number ⟨53,-1074,by decide⟩

instance : Element Int Double :=
  ⟨Int.tdiv,fun mean element count => mean + (.ofRat element - mean) / .ofRat count⟩

instance : Element Rat Rat :=
  ⟨fun element interval => element / interval,fun mean element count => mean + (element - mean) / (count : Rat)⟩

/-- The extremes are not set before the first push; the zero given to them here is
never looked at by a class that asks for the count first. -/
structure Statistics (T D : Type) [Ord T] where
  mean : D
  max : T
  min : T
  count : Nat
  frequencyMapInterval : T
  frequencyMap : Std.TreeMap T Nat compare

namespace Statistics
variable {T D : Type} [Ord T] [Zero T] [Zero D]

def make (D : Type) [Zero D] (frequencyMapInterval : T) : Statistics T D :=
  ⟨0,0,0,0,frequencyMapInterval,∅⟩

variable [LT T] [DecidableLT T] [DecidableEq T] [Element T D]

omit [Zero D] in
def push (s : Statistics T D) (element : T) : Statistics T D where
  max := if s.count = 0 then element else if s.max < element then element else s.max
  min := if s.count = 0 then element else if s.min > element then element else s.min
  count := s.count + 1
  mean := Element.corrected s.mean element (s.count + 1)
  frequencyMapInterval := s.frequencyMapInterval
  frequencyMap :=
    if s.frequencyMapInterval ≠ 0 then
      let bucket := Element.quotient D element s.frequencyMapInterval
      s.frequencyMap.insert bucket (s.frequencyMap.getD bucket 0 + 1)
    else s.frequencyMap

omit [Zero D] in
def pushAll (s : Statistics T D) (elements : List T) : Statistics T D := elements.foldl push s

omit [Zero D] in
@[simp] theorem pushAll_nil (s : Statistics T D) : s.pushAll [] = s := rfl

omit [Zero D] in
@[simp] theorem pushAll_cons (s : Statistics T D) (x : T) (xs : List T) :
    s.pushAll (x :: xs) = (s.push x).pushAll xs := rfl

omit [Zero D] in
theorem pushAll_append (s : Statistics T D) (xs ys : List T) :
    s.pushAll (xs ++ ys) = (s.pushAll xs).pushAll ys := by
  simp [pushAll]

omit [Zero D] in
theorem pushAll_count (s : Statistics T D) (xs : List T) :
    (s.pushAll xs).count = s.count + xs.length := by
  induction xs generalizing s with
  | nil => rfl
  | cons x xs ih =>
    rw [pushAll_cons,ih,List.length_cons]
    simp only [push]
    omega

/-- The mean while the elements are pushed, from the mean of the first `count`. -/
def runningMean (mean : D) (count : Nat) : List T → D
  | [] => mean
  | element :: elements => runningMean (Element.corrected mean element (count + 1)) (count + 1) elements

omit [Zero D] in
theorem pushAll_mean (s : Statistics T D) (xs : List T) : (s.pushAll xs).mean = runningMean s.mean s.count xs := by
  induction xs generalizing s with
  | nil => rfl
  | cons x xs ih => exact ih (s.push x)

/-! ### Exact means -/

/-- Element types whose means are computed in exact numbers. -/
class ExactElement (T : Type) [Element T Rat] where
  value : T → Rat
  corrected : ∀ (mean : Rat) (element : T) (count : Nat),
    Element.corrected mean element count = mean + (value element - mean) / (count : Rat)

instance : ExactElement Int := ⟨fun element => element,fun _ _ _ => rfl⟩

instance : ExactElement Rat := ⟨id,fun _ _ _ => rfl⟩

section Means
variable {T : Type} [Ord T] [Zero T] [LT T] [DecidableLT T] [DecidableEq T] [Element T Rat] [ExactElement T]

private theorem push_total (s : Statistics T Rat) (x : T) :
    (s.push x).mean * (s.push x).count = s.mean * s.count + ExactElement.value x := by
  have positive : ((s.count + 1 : Nat) : Rat) ≠ 0 := Nat.cast_ne_zero.mpr (by omega)
  simp only [push,ExactElement.corrected]
  field_simp
  push_cast
  ring

theorem pushAll_total (s : Statistics T Rat) (xs : List T) :
    (s.pushAll xs).mean * (s.pushAll xs).count = s.mean * s.count + (xs.map ExactElement.value).sum := by
  induction xs generalizing s with
  | nil => simp
  | cons x xs ih =>
    rw [pushAll_cons,ih,push_total,List.map_cons,List.sum_cons]
    ring

theorem make_mean (interval : T) (xs : List T) :
    ((make Rat interval).pushAll xs).mean = (xs.map ExactElement.value).sum / (xs.length : Rat) := by
  cases xs with
  | nil => simp [make]
  | cons x xs =>
    have total := pushAll_total (make Rat interval) (x :: xs)
    have count := pushAll_count (make Rat interval) (x :: xs)
    rw [count] at total
    have positive : ((x :: xs).length : Rat) ≠ 0 := Nat.cast_ne_zero.mpr (by simp)
    rw [eq_div_iff positive]
    simpa [make] using total

end Means

/-! ### Frequencies -/

omit [Zero D] in
theorem pushAll_frequencies (s : Statistics Int D) [Element Int D] (xs : List Int)
    (grouped : s.frequencyMapInterval ≠ 0) (bucket : Int) :
    (s.pushAll xs).frequencyMap[bucket]? =
      if xs.countP (Element.quotient D · s.frequencyMapInterval = bucket) = 0 then s.frequencyMap[bucket]?
      else some (s.frequencyMap.getD bucket 0 +
        xs.countP (Element.quotient D · s.frequencyMapInterval = bucket)) := by
  induction xs generalizing s with
  | nil => simp
  | cons x xs ih =>
    have interval : (s.push x).frequencyMapInterval = s.frequencyMapInterval := rfl
    rw [pushAll_cons,ih (s.push x) grouped,interval,List.countP_cons]
    by_cases here : Element.quotient D x s.frequencyMapInterval = bucket
    · have counted : (s.push x).frequencyMap[bucket]? = some (s.frequencyMap.getD bucket 0 + 1) ∧
          (s.push x).frequencyMap.getD bucket 0 = s.frequencyMap.getD bucket 0 + 1 := by
        simp [push,grouped,here]
      rw [counted.1,counted.2,if_pos (decide_eq_true here),if_neg (Nat.succ_ne_zero _)]
      split
      next none => rw [none]
      next => rw [Nat.add_assoc,Nat.add_comm 1]
    · have away : (s.push x).frequencyMap[bucket]? = s.frequencyMap[bucket]? ∧
          (s.push x).frequencyMap.getD bucket 0 = s.frequencyMap.getD bucket 0 := by
        simp [push,grouped,Std.TreeMap.getElem?_insert,Std.TreeMap.getD_insert,here]
      rw [away.1,away.2]
      simp only [here,decide_false,Bool.false_eq_true,if_false,Nat.add_zero]

/-! ### Extremes -/

section Extremes
variable {T D : Type} [LinearOrder T] [Zero T] [Zero D] [Element T D]

omit [Zero D] in
private theorem push_extremes (s : Statistics T D) (x : T) (some : s.count ≠ 0) :
    (s.push x).max = Max.max s.max x ∧ (s.push x).min = Min.min s.min x := by
  simp only [push,some,if_false]
  constructor
  · split
    next below => exact (max_eq_right (le_of_lt below)).symm
    next above => exact (max_eq_left (not_lt.mp above)).symm
  · split
    next below => exact (min_eq_right (le_of_lt below)).symm
    next above => exact (min_eq_left (not_lt.mp above)).symm

omit [Zero D] in
private theorem pushAll_max (s : Statistics T D) (xs : List T) (some : s.count ≠ 0) :
    (s.pushAll xs).max ∈ s.max :: xs ∧ ∀ y ∈ s.max :: xs, y ≤ (s.pushAll xs).max := by
  induction xs generalizing s with
  | nil => simp
  | cons x xs ih =>
    obtain ⟨member,bound⟩ := ih (s.push x) (by simp [push])
    have larger := (push_extremes s x some).1
    rw [larger] at member bound
    have top : Max.max s.max x ≤ (pushAll s (x :: xs)).max := bound _ (by simp)
    refine ⟨?_,?_⟩
    · rw [pushAll_cons]
      rcases List.mem_cons.mp member with same | inside
      · rw [same]
        rcases max_choice s.max x with left | right
        · simp [left]
        · simp [right]
      · simp [inside]
    · intro y present
      simp only [List.mem_cons] at present
      rcases present with rfl | rfl | inside
      · exact le_trans (le_max_left _ _) top
      · exact le_trans (le_max_right _ _) top
      · exact bound y (by simp [inside])

omit [Zero D] in
private theorem pushAll_min (s : Statistics T D) (xs : List T) (some : s.count ≠ 0) :
    (s.pushAll xs).min ∈ s.min :: xs ∧ ∀ y ∈ s.min :: xs, (s.pushAll xs).min ≤ y := by
  induction xs generalizing s with
  | nil => simp
  | cons x xs ih =>
    obtain ⟨member,bound⟩ := ih (s.push x) (by simp [push])
    have smaller := (push_extremes s x some).2
    rw [smaller] at member bound
    have bottom : (pushAll s (x :: xs)).min ≤ Min.min s.min x := bound _ (by simp)
    refine ⟨?_,?_⟩
    · rw [pushAll_cons]
      rcases List.mem_cons.mp member with same | inside
      · rw [same]
        rcases min_choice s.min x with left | right
        · simp [left]
        · simp [right]
      · simp [inside]
    · intro y present
      simp only [List.mem_cons] at present
      rcases present with rfl | rfl | inside
      · exact le_trans bottom (min_le_left _ _)
      · exact le_trans bottom (min_le_right _ _)
      · exact bound y (by simp [inside])

theorem make_extremes (interval : T) (xs : List T) (some : xs ≠ []) :
    (((make D interval).pushAll xs).max ∈ xs ∧ ∀ y ∈ xs, y ≤ ((make D interval).pushAll xs).max) ∧
    (((make D interval).pushAll xs).min ∈ xs ∧ ∀ y ∈ xs, ((make D interval).pushAll xs).min ≤ y) := by
  cases xs with
  | nil => contradiction
  | cons x xs =>
    have first : (((make D interval).push x).max = x) ∧ (((make D interval).push x).min = x) := by
      simp [push,make]
    have high := pushAll_max ((make D interval).push x) xs (by simp [push])
    have low := pushAll_min ((make D interval).push x) xs (by simp [push])
    rw [first.1] at high
    rw [first.2] at low
    exact ⟨high,low⟩

theorem extremes_perm (interval : T) (xs ys : List T) (perm : xs.Perm ys) (some : xs ≠ []) :
    ((make D interval).pushAll xs).max = ((make D interval).pushAll ys).max ∧
      ((make D interval).pushAll xs).min = ((make D interval).pushAll ys).min := by
  have other : ys ≠ [] := fun empty => some (by rw [empty] at perm; exact perm.eq_nil)
  obtain ⟨⟨maxIn,maxLe⟩,minIn,minLe⟩ := make_extremes (D := D) interval xs some
  obtain ⟨⟨maxIn',maxLe'⟩,minIn',minLe'⟩ := make_extremes (D := D) interval ys other
  exact ⟨le_antisymm (maxLe' _ (perm.subset maxIn)) (maxLe _ (perm.symm.subset maxIn')),
    le_antisymm (minLe _ (perm.symm.subset minIn')) (minLe' _ (perm.subset minIn))⟩

end Extremes

/-! ### The order of the pushes -/

structure Same (a b : Statistics Int Rat) : Prop where
  count : a.count = b.count
  mean : a.mean = b.mean
  max : a.max = b.max
  min : a.min = b.min
  frequencies : a.frequencyMap.toList = b.frequencyMap.toList

theorem pushAll_ungrouped {T D : Type} [Ord T] [Zero T] [LT T] [DecidableLT T] [DecidableEq T] [Element T D]
    (s : Statistics T D) (xs : List T) (none : s.frequencyMapInterval = 0) :
    (s.pushAll xs).frequencyMap = s.frequencyMap := by
  induction xs generalizing s with
  | nil => rfl
  | cons x xs ih =>
    have same : (s.push x).frequencyMap = s.frequencyMap := if_neg (not_not.mpr none)
    rw [pushAll_cons,ih (s.push x) none,same]

theorem frequencies_perm (interval : Int) (xs ys : List Int) (perm : xs.Perm ys) :
    ((make Rat interval).pushAll xs).frequencyMap.toList = ((make Rat interval).pushAll ys).frequencyMap.toList := by
  by_cases grouped : interval = 0
  · rw [pushAll_ungrouped _ xs grouped,pushAll_ungrouped _ ys grouped]
  · apply Std.TreeMap.Equiv.toList_eq
    apply Std.TreeMap.Equiv.of_forall_constGet?_eq
    intro bucket
    rw [pushAll_frequencies _ xs grouped,pushAll_frequencies _ ys grouped,perm.countP_eq]

theorem pushAll_perm (interval : Int) (xs ys : List Int) (perm : xs.Perm ys) :
    Same ((make Rat interval).pushAll xs) ((make Rat interval).pushAll ys) := by
  by_cases none : xs = []
  · subst none
    obtain rfl := perm.nil_eq
    exact ⟨rfl,rfl,rfl,rfl,rfl⟩
  · obtain ⟨max,min⟩ := extremes_perm (D := Rat) interval xs ys perm none
    refine ⟨?_,?_,max,min,frequencies_perm interval xs ys perm⟩
    · rw [pushAll_count,pushAll_count,perm.length_eq]
    · rw [make_mean,make_mean,(perm.map _).sum_eq,perm.length_eq]

end Statistics
end Dhtperf
