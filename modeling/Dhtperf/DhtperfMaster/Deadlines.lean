import Dhtperf.DhtperfMaster.Ports
import Dhtperf.DhtperfMaster.Counts

/-! The two deadlines of a run: the master forces the end a while after the workload, and the
timeout thread of each controller is meant to end the process ten seconds later. -/
namespace Dhtperf
open Library

/-- What `run` waits for: an `unsigned int` and an `int` add up to an `unsigned int`. -/
def DhtperfMaster.timeoutSeconds (workload : MasterWorkload) : UInt32 :=
  workload.duration + UInt32.ofNat reportAndFinishTimeout

/-- The variable of `timeoutThreadFunction`: the same kind of sum, stored in an `int`. -/
def DhtperfController.toWait (duration : TimeUnit) : Int32 :=
  (duration + UInt32.ofNat reportAndFinishTimeout + 10).toInt32

namespace DhtperfMaster

def controllerDuration (wrapper : Wrapper) (workload : MasterWorkload) (addresses : List Bytes) (i : Nat) : TimeUnit :=
  (DhtperfController.setStart wrapper .make (startMessage workload addresses i)).1

/-- The master waits exactly the duration and the time to report, and each controller exactly
ten seconds more. -/
structure DeadlinesExact (wrapper : Wrapper) (workload : MasterWorkload) (addresses : List Bytes) (i : Nat) : Prop where
  master : ((timeoutSeconds workload).toNat : Int) = workload.duration.toNat + reportAndFinishTimeout
  controller : (DhtperfController.toWait (controllerDuration wrapper workload addresses i)).toInt =
    workload.duration.toNat + reportAndFinishTimeout + 10

theorem timeoutSeconds_small (workload : MasterWorkload) (fits : workload.duration.toNat + 100 < 2^31) :
    (timeoutSeconds workload).toNat = workload.duration.toNat + 90 := by
  rw [timeoutSeconds,UInt32.toNat_add]
  exact Nat.mod_eq_of_lt (by change workload.duration.toNat + 90 < 2^32; omega)

theorem toWait_small (duration : TimeUnit) (fits : duration.toNat + 100 < 2^31) :
    (DhtperfController.toWait duration).toInt = duration.toNat + 100 := by
  have sum : (duration + UInt32.ofNat reportAndFinishTimeout + 10).toNat = duration.toNat + 100 := by
    rw [UInt32.toNat_add,UInt32.toNat_add]
    change ((duration.toNat + 90) % 2^32 + 10) % 2^32 = duration.toNat + 100
    omega
  rw [DhtperfController.toWait,toInt32_small _ (by omega),sum]
  rfl

/-- Both are exact as long as the later one fits into an `int`. -/
theorem deadlines_exact_iff (wrapper : Wrapper) (workload : MasterWorkload) (addresses : List Bytes) (i : Nat) :
    DeadlinesExact wrapper workload addresses i ↔ workload.duration.toNat + 100 < 2^31 := by
  constructor
  · intro exact
    have range := Int32.toInt_lt (DhtperfController.toWait (controllerDuration wrapper workload addresses i))
    have controller := exact.controller
    have value : reportAndFinishTimeout = 90 := rfl
    omega
  · intro fits
    have value : reportAndFinishTimeout = 90 := rfl
    constructor
    · rw [timeoutSeconds_small workload fits,value]
      rfl
    · change (DhtperfController.toWait workload.duration).toInt = _
      rw [toWait_small workload.duration fits,value]
      omega

def longFile : Bytes :=
  ascii "nodes 1\nduration 2147483600\nprofile p\njoin exact 0\nleave none\nput none\nget none\ndefault-profile p\n"

/-- The master waits for 2147483690 seconds, and its controller not at all. -/
theorem longFile_not_exact : ∃ workload, MasterWorkload.loadConfig longFile 0 = .ok (some workload) ∧
    (DhtperfController.toWait (controllerDuration .kaddemo workload [ascii "a"] 0)).toInt < 0 ∧
    ¬DeadlinesExact .kaddemo workload [ascii "a"] 0 := by
  refine ⟨{loneWorkload with duration := 2147483600},rfl,by decide,fun exact => ?_⟩
  exact absurd exact.controller (by decide)

end DhtperfMaster
end Dhtperf
