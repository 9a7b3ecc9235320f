import Mathlib.Data.List.Basic
import Mathlib.Data.List.Perm.Basic
import Mathlib.Order.Lattice

/-! Priority queues kept in a vector by an arbitrary heap discipline. Only the
front of the vector is promised to be least, so ties leave in any order. -/
namespace Dhtperf.Library

variable {α κ : Type} [LinearOrder κ] {key : α → κ}

def LeastFirst (key : α → κ) : List α → Prop
  | [] => True
  | front :: rest => ∀ x ∈ rest, key front ≤ key x

/-- How a heap rearranges its vector after an insertion and after a removal. -/
class HeapDiscipline (α : Type) {κ : Type} [LinearOrder κ] (key : α → κ) where
  pushHeap : List α → List α
  popHeap : List α → List α
  push_perm : ∀ vector, (pushHeap vector).Perm vector
  pop_perm : ∀ vector, (popHeap vector).Perm vector
  push_least : ∀ vector, LeastFirst key (pushHeap vector)
  pop_least : ∀ vector, LeastFirst key (popHeap vector)

structure PriorityQueue (α : Type) {κ : Type} [LinearOrder κ] (key : α → κ) where
  elements : List α
  least : LeastFirst key elements

namespace PriorityQueue

def empty : PriorityQueue α key := ⟨[],trivial⟩

def top (queue : PriorityQueue α key) : Option α := queue.elements.head?

variable [HeapDiscipline α key]

def push (queue : PriorityQueue α key) (x : α) : PriorityQueue α key :=
  ⟨HeapDiscipline.pushHeap key (queue.elements ++ [x]),HeapDiscipline.push_least _⟩

def pushAll (queue : PriorityQueue α key) (xs : List α) : PriorityQueue α key :=
  xs.foldl push queue

def pop (queue : PriorityQueue α key) : PriorityQueue α key :=
  ⟨HeapDiscipline.popHeap key queue.elements.tail,HeapDiscipline.pop_least _⟩

/-- Pops while the top is not above the bound; the fuel is the number of elements. -/
def drain : Nat → PriorityQueue α key → κ → List α × PriorityQueue α key
  | 0, queue, _ => ([],queue)
  | fuel+1, queue, bound =>
    match queue.top with
    | none => ([],queue)
    | some x =>
      if key x ≤ bound then
        let (out,left) := drain fuel queue.pop bound
        (x :: out,left)
      else ([],queue)

def popUpTo (queue : PriorityQueue α key) (bound : κ) : List α × PriorityQueue α key :=
  drain queue.elements.length queue bound

omit [HeapDiscipline α key] in
@[simp] theorem empty_elements : (empty : PriorityQueue α key).elements = [] := rfl

omit [HeapDiscipline α key] in
theorem top_eq_none (queue : PriorityQueue α key) : queue.top = none ↔ queue.elements = [] := by
  simp [top]

omit [HeapDiscipline α key] in
theorem top_least (queue : PriorityQueue α key) (x : α) (found : queue.top = some x) :
    x ∈ queue.elements ∧ ∀ y ∈ queue.elements, key x ≤ key y := by
  obtain ⟨elements,least⟩ := queue
  cases elements with
  | nil => simp [top] at found
  | cons front rest =>
    have same : front = x := by simpa [top] using found
    subst same
    refine ⟨by simp,?_⟩
    intro y member
    rcases List.mem_cons.mp member with rfl | inside
    · exact le_refl _
    · exact least y inside

theorem push_perm (queue : PriorityQueue α key) (x : α) :
    (queue.push x).elements.Perm (x :: queue.elements) := by
  have arranged : (queue.push x).elements.Perm (queue.elements ++ [x]) := HeapDiscipline.push_perm _
  exact arranged.trans List.perm_append_comm

theorem pushAll_perm (queue : PriorityQueue α key) (xs : List α) :
    (queue.pushAll xs).elements.Perm (xs ++ queue.elements) := by
  induction xs generalizing queue with
  | nil => exact List.Perm.refl _
  | cons x xs ih =>
    have tail : (queue.pushAll (x :: xs)).elements.Perm (xs ++ (queue.push x).elements) := ih _
    exact tail.trans (((push_perm queue x).append_left xs).trans List.perm_middle)

theorem pop_perm (queue : PriorityQueue α key) (x : α) (found : queue.top = some x) :
    (x :: queue.pop.elements).Perm queue.elements := by
  obtain ⟨elements,least⟩ := queue
  cases elements with
  | nil => simp [top] at found
  | cons front rest =>
    have same : front = x := by simpa [top] using found
    subst same
    have arranged : (pop ⟨front :: rest,least⟩ : PriorityQueue α key).elements.Perm rest :=
      HeapDiscipline.pop_perm _
    exact arranged.cons _

theorem drain_perm (fuel : Nat) (queue : PriorityQueue α key) (bound : κ) :
    ((drain fuel queue bound).1 ++ (drain fuel queue bound).2.elements).Perm queue.elements := by
  induction fuel generalizing queue with
  | zero => exact List.Perm.refl _
  | succ fuel ih =>
    cases found : queue.top with
    | none => simp [drain,found]
    | some x =>
      by_cases due : key x ≤ bound
      · simpa [drain,found,due] using ((ih queue.pop).cons x).trans (pop_perm queue x found)
      · simp [drain,found,due]

theorem drain_due (fuel : Nat) (queue : PriorityQueue α key) (bound : κ) :
    ∀ x ∈ (drain fuel queue bound).1, key x ≤ bound := by
  induction fuel generalizing queue with
  | zero => simp [drain]
  | succ fuel ih =>
    cases found : queue.top with
    | none => simp [drain,found]
    | some x =>
      by_cases due : key x ≤ bound
      · intro y member
        have cases : y = x ∨ y ∈ (drain fuel queue.pop bound).1 := by
          simpa [drain,found,due] using member
        rcases cases with rfl | inside
        · exact due
        · exact ih queue.pop y inside
      · simp [drain,found,due]

theorem drain_left (fuel : Nat) (queue : PriorityQueue α key) (bound : κ)
    (enough : queue.elements.length ≤ fuel) :
    ∀ x ∈ (drain fuel queue bound).2.elements, bound < key x := by
  induction fuel generalizing queue with
  | zero =>
    have none : queue.elements = [] := List.length_eq_zero_iff.mp (by omega)
    simp [drain,none]
  | succ fuel ih =>
    cases found : queue.top with
    | none =>
      have none := (top_eq_none queue).mp found
      simp [drain,found,none]
    | some x =>
      by_cases due : key x ≤ bound
      · have smaller := (pop_perm queue x found).length_eq
        simp only [List.length_cons] at smaller
        simpa [drain,found,due] using ih queue.pop (by omega)
      · intro y member
        have inside : y ∈ queue.elements := by simpa [drain,found,due] using member
        exact lt_of_lt_of_le (not_le.mp due) ((top_least queue x found).2 y inside)

theorem drain_sorted (fuel : Nat) (queue : PriorityQueue α key) (bound : κ) :
    (drain fuel queue bound).1.Pairwise (fun a b => key a ≤ key b) := by
  induction fuel generalizing queue with
  | zero => simp [drain]
  | succ fuel ih =>
    cases found : queue.top with
    | none => simp [drain,found]
    | some x =>
      by_cases due : key x ≤ bound
      · have least := (top_least queue x found).2
        have behind : ∀ y ∈ (drain fuel queue.pop bound).1, key x ≤ key y := by
          intro y member
          have later := (drain_perm fuel queue.pop bound).subset (List.mem_append_left _ member)
          exact least y ((pop_perm queue x found).subset (List.mem_cons_of_mem x later))
        simpa [drain,found,due] using ⟨behind,ih queue.pop⟩
      · simp [drain,found,due]

theorem popUpTo_perm (queue : PriorityQueue α key) (bound : κ) :
    ((queue.popUpTo bound).1 ++ (queue.popUpTo bound).2.elements).Perm queue.elements :=
  drain_perm _ _ _

theorem popUpTo_due (queue : PriorityQueue α key) (bound : κ) :
    ∀ x ∈ (queue.popUpTo bound).1, key x ≤ bound :=
  drain_due _ _ _

theorem popUpTo_left (queue : PriorityQueue α key) (bound : κ) :
    ∀ x ∈ (queue.popUpTo bound).2.elements, bound < key x :=
  drain_left _ _ _ (Nat.le_refl _)

theorem popUpTo_filter (queue : PriorityQueue α key) (bound : κ) :
    (queue.popUpTo bound).1.Perm (queue.elements.filter fun x => decide (key x ≤ bound)) ∧
      (queue.popUpTo bound).2.elements.Perm (queue.elements.filter fun x => decide (bound < key x)) := by
  have due := popUpTo_due queue bound
  have left := popUpTo_left queue bound
  have whole := popUpTo_perm queue bound
  have first := whole.filter fun x => decide (key x ≤ bound)
  have second := whole.filter fun x => decide (bound < key x)
  have out_due : (queue.popUpTo bound).1.filter (fun x => decide (key x ≤ bound)) = (queue.popUpTo bound).1 :=
    List.filter_eq_self.mpr fun x member => decide_eq_true (due x member)
  have left_due : (queue.popUpTo bound).2.elements.filter (fun x => decide (key x ≤ bound)) = [] :=
    List.filter_eq_nil_iff.mpr fun x member => by simpa using left x member
  have out_later : (queue.popUpTo bound).1.filter (fun x => decide (bound < key x)) = [] :=
    List.filter_eq_nil_iff.mpr fun x member => by simpa using due x member
  have left_later : (queue.popUpTo bound).2.elements.filter (fun x => decide (bound < key x)) =
      (queue.popUpTo bound).2.elements :=
    List.filter_eq_self.mpr fun x member => decide_eq_true (left x member)
  rw [List.filter_append,out_due,left_due,List.append_nil] at first
  rw [List.filter_append,out_later,left_later,List.nil_append] at second
  exact ⟨first,second⟩

theorem popUpTo_all (queue : PriorityQueue α key) (bound : κ) (due : ∀ x ∈ queue.elements, key x ≤ bound) :
    (queue.popUpTo bound).1.Perm queue.elements ∧ (queue.popUpTo bound).2.elements = [] := by
  have whole := popUpTo_perm queue bound
  have none : (queue.popUpTo bound).2.elements = [] := by
    refine List.eq_nil_iff_forall_not_mem.mpr fun x stays => ?_
    have below := due x (whole.subset (List.mem_append_right _ stays))
    exact absurd (popUpTo_left queue bound x stays) (not_lt.mpr below)
  rw [none,List.append_nil] at whole
  exact ⟨whole,none⟩

theorem popUpTo_none (queue : PriorityQueue α key) (bound : κ) (later : ∀ x ∈ queue.elements, bound < key x) :
    (queue.popUpTo bound).1 = [] ∧ (queue.popUpTo bound).2.elements.Perm queue.elements := by
  have whole := popUpTo_perm queue bound
  have none : (queue.popUpTo bound).1 = [] := by
    refine List.eq_nil_iff_forall_not_mem.mpr fun x leaves => ?_
    have above := later x (whole.subset (List.mem_append_left _ leaves))
    exact absurd (popUpTo_due queue bound x leaves) (not_le.mpr above)
  rw [none,List.nil_append] at whole
  exact ⟨none,whole⟩

/-- Elements that share one key leave together or stay together. -/
theorem popUpTo_together (queue : PriorityQueue α key) (bound : κ)
    (same : ∀ x ∈ queue.elements, ∀ y ∈ queue.elements, key x = key y) :
    (queue.popUpTo bound).1 = [] ∧ (queue.popUpTo bound).2.elements.Perm queue.elements ∨
      (queue.popUpTo bound).1.Perm queue.elements ∧ (queue.popUpTo bound).2.elements = [] := by
  by_cases due : ∀ x ∈ queue.elements, key x ≤ bound
  · exact Or.inr (popUpTo_all queue bound due)
  · left
    obtain ⟨x,queued,above⟩ : ∃ x ∈ queue.elements, ¬key x ≤ bound := by simpa using due
    refine popUpTo_none queue bound fun y member => ?_
    rw [← same x queued y member]
    exact not_le.mp above

theorem popUpTo_sorted (queue : PriorityQueue α key) (bound : κ) :
    (queue.popUpTo bound).1.Pairwise (fun a b => key a ≤ key b) :=
  drain_sorted _ _ _

end PriorityQueue

/-- The discipline that brings the earliest least element to the front. -/
def raiseLeast (key : α → κ) : List α → List α
  | [] => []
  | x :: rest =>
    match raiseLeast key rest with
    | [] => [x]
    | y :: others => if key x ≤ key y then x :: y :: others else y :: x :: others

theorem raiseLeast_perm (key : α → κ) (xs : List α) : (raiseLeast key xs).Perm xs := by
  induction xs with
  | nil => exact List.Perm.refl _
  | cons x rest ih =>
    simp only [raiseLeast]
    split
    next empty => rw [empty] at ih; exact ih.cons x
    next y others raised =>
      rw [raised] at ih
      split
      · exact ih.cons x
      · exact (List.Perm.swap x y others).trans (ih.cons x)

theorem raiseLeast_least (key : α → κ) (xs : List α) : LeastFirst key (raiseLeast key xs) := by
  induction xs with
  | nil => trivial
  | cons x rest ih =>
    simp only [raiseLeast]
    split
    next => intro y member; simp at member
    next y others raised =>
      rw [raised] at ih
      split
      next below =>
        intro z member
        rcases List.mem_cons.mp member with rfl | inside
        · exact below
        · exact le_trans below (ih z inside)
      next above =>
        intro z member
        rcases List.mem_cons.mp member with rfl | inside
        · exact le_of_lt (not_le.mp above)
        · exact ih z inside

@[reducible] def earliestLeast (key : α → κ) : HeapDiscipline α key :=
  ⟨raiseLeast key,raiseLeast key,raiseLeast_perm key,raiseLeast_perm key,raiseLeast_least key,
    raiseLeast_least key⟩

end Dhtperf.Library
