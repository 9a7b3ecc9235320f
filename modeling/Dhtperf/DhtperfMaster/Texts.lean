import Dhtperf.DhtperfMaster.Counts

/-! The two texts of plain counters: a node writes its hits and misses for the master, and the
master its three numbers of nodes for its own result processor. -/
namespace Dhtperf
open Library

/-- What a `NodeSuccessRate` can be asked gives the same answers. -/
structure NodeSuccessRate.SameAnswers (first second : NodeSuccessRate) : Prop where
  hits : first.hits = second.hits
  misses : first.misses = second.misses
  count : first.count = second.count
  successRate : first.successRate = second.successRate
  toString : first.toString = second.toString

theorem NodeSuccessRate.SameAnswers.refl (node : NodeSuccessRate) : SameAnswers node node := ⟨rfl,rfl,rfl,rfl,rfl⟩

namespace DhtperfMaster

theorem toInt32_range (n : UInt32) : n.toInt32.toInt < 2^31 := Int32.toInt_lt n.toInt32

theorem nodesStatus_range (m : DhtperfMaster) :
    m.nodesStatus.finished < 2^31 ∧ m.nodesStatus.failed < 2^31 ∧ m.nodesStatus.unfinished < 2^31 :=
  ⟨toInt32_range _,toInt32_range _,toInt32_range _⟩

theorem nodesStatus_onto (m : DhtperfMaster) (finished failed unfinished : Nat)
    (fits : finished < 2^31 ∧ failed < 2^31 ∧ unfinished < 2^31) :
    nodesStatus {m with
      workload := {m.workload with nodes := .ofNat unfinished + (.ofNat finished + .ofNat failed)}
      finishedControllers := .ofNat finished + .ofNat failed
      failedControllers := .ofNat failed} = ⟨finished,failed,unfinished⟩ := by
  have small (n : Nat) (bound : n < 2^31) : (UInt32.ofNat n).toInt32.toInt = n := by
    rw [toInt32_small]
    · rw [UInt32.toNat_ofNat']
      omega
    · rw [UInt32.toNat_ofNat']
      omega
  simp only [nodesStatus,UInt32.add_sub_cancel,small _ fits.1,small _ fits.2.1,small _ fits.2.2]

/-- Both texts are read back: every pair of counters a node can write, and every three
numbers that the master can write, whatever was there before. -/
theorem texts_read_back :
    (∀ hits misses : Int, 0 ≤ hits → hits < 2^63 → 0 ≤ misses → misses < 2^63 →
      (NodeSuccessRate.ofString (NodeSuccessRate.toString ⟨hits,misses⟩)).SameAnswers ⟨hits,misses⟩) ∧
    (∀ (m : DhtperfMaster) (finished failed unfinished : Int), 0 ≤ finished → 0 ≤ failed → 0 ≤ unfinished →
      m.nodesStatus = ⟨finished,failed,unfinished⟩ →
        ∀ before : NodesStatus, before.set m.nodesStatusText = ⟨finished,failed,unfinished⟩) := by
  constructor
  · intro hits misses hits_low hits_high misses_low misses_high
    obtain ⟨h,rfl⟩ := Int.eq_ofNat_of_zero_le hits_low
    obtain ⟨s,rfl⟩ := Int.eq_ofNat_of_zero_le misses_low
    rw [NodeSuccessRate.ofString_toString h s (by omega)]
    exact .refl _
  · intro m finished failed unfinished finished_low failed_low unfinished_low same before
    obtain ⟨finished_high,failed_high,unfinished_high⟩ := nodesStatus_range m
    simp only [same] at finished_high failed_high unfinished_high
    obtain ⟨a,rfl⟩ := Int.eq_ofNat_of_zero_le finished_low
    obtain ⟨b,rfl⟩ := Int.eq_ofNat_of_zero_le failed_low
    obtain ⟨c,rfl⟩ := Int.eq_ofNat_of_zero_le unfinished_low
    rw [nodesStatusText,same]
    simp only [NodeSuccessRate.written_natCast]
    exact NodesStatus.set_decimal before a b c (by omega)

def crowded : DhtperfMaster :=
  {make {loneWorkload with nodes := 2^31 + 9} (ascii "dummy") true 3 with finishedControllers := 2^31 - 1}

theorem largest_read_back :
    (NodeSuccessRate.ofString (NodeSuccessRate.toString ⟨2^63 - 1,0⟩)).SameAnswers ⟨2^63 - 1,0⟩ ∧
      NodesStatus.empty.set crowded.nodesStatusText = ⟨2^31 - 1,0,10⟩ :=
  ⟨texts_read_back.1 (2^63 - 1) 0 (by decide) (by decide) (by decide) (by decide),
    texts_read_back.2 crowded (2^31 - 1) 0 10 (by decide) (by decide) (by decide) (by decide) .empty⟩

end DhtperfMaster
end Dhtperf
