import Dhtperf.Library.Runs
import Mathlib.Data.DFinsupp.WellFounded
import Mathlib.SetTheory.Ordinal.Rank

/-! Systems of parts that move one at a time. A part that comes to an end has a height that
falls with each of its moves, and a system whose parts all fall comes to an end as well. -/
namespace Dhtperf.Library

theorem parts_less {ι : Type} {μ : Type*} [Preorder μ] (i : ι) (after before : ι → μ) (less : after i < before i)
    (same : ∀ k, k ≠ i → after k = before k) : after < before := by
  refine Pi.lt_def.mpr ⟨fun k => ?_,i,less⟩
  by_cases here : k = i
  · rw [here]
    exact less.le
  · exact (same k here).le

variable {σ : Type} (step : σ → σ → Prop)

/-- A run from here need not come to an end. -/
def Endless (first : σ) : Prop := ∃ path : Nat → σ, path 0 = first ∧ ∀ n, step (path n) (path (n+1))

theorem Endless.head (before after : σ) (moved : step before after) (endless : Endless step after) :
    Endless step before := by
  obtain ⟨path,rfl,steps⟩ := endless
  refine ⟨fun n => n.casesOn before path,rfl,fun n => ?_⟩
  cases n with
  | zero => exact moved
  | succ n => exact steps n

theorem endless_acc (first : σ) : ¬Endless step first ↔ Acc (fun after before => step before after) first := by
  rw [acc_iff_isEmpty_descending_chain,isEmpty_subtype,Endless,not_exists]

open Classical in
/-- How far it is at most to the end. -/
noncomputable def height (s : σ) : Ordinal.{0} :=
  if ends : Acc (fun after before => step before after) s then ends.rank else 0

theorem height_less (before after : σ) (ends : ¬Endless step before) (moved : step before after) :
    height step after < height step before := by
  have start := (endless_acc step before).mp ends
  unfold height
  rw [dif_pos start,dif_pos (start.inv moved)]
  exact start.rank_lt_of_rel moved

theorem ends_of_measure {μ : Type*} [LT μ] [WellFoundedLT μ] (good : σ → Prop) (measure : σ → μ)
    (preserved : ∀ before after, good before → step before after → good after)
    (decreases : ∀ before after, good before → step before after → measure after < measure before)
    (first : σ) (start : good first) : ¬Endless step first := by
  rintro ⟨path,rfl,steps⟩
  exact no_endless_run measure preserved decreases path start steps

end Dhtperf.Library
