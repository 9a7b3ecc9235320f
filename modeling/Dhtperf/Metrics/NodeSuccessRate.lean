import Dhtperf.Basic
import Mathlib.Algebra.Order.Ring.Rat

/-! Hits and misses of one node, and the finished, failed and unfinished numbers of
the whole run. Both are written as decimal numbers separated by spaces. -/
namespace Dhtperf
open Library

structure NodeSuccessRate where
  hits : Int
  misses : Int
  deriving DecidableEq

namespace NodeSuccessRate

def empty : NodeSuccessRate := ⟨0,0⟩

def hit (node : NodeSuccessRate) : NodeSuccessRate := {node with hits := node.hits + 1}

def miss (node : NodeSuccessRate) : NodeSuccessRate := {node with misses := node.misses + 1}

def count (node : NodeSuccessRate) : Int := node.hits + node.misses

def successRate (node : NodeSuccessRate) : Rat :=
  if node.misses + node.hits = 0 then 0 else (node.hits : Rat) / ((node.misses + node.hits : Int) : Rat)

/-- `stream << value` for a signed integer. -/
def written (value : Int) : Bytes :=
  if value < 0 then 45 :: decimal value.natAbs else decimal value.natAbs

theorem written_natCast (n : Nat) : written (n : Int) = decimal n := by
  simp [written]

def toString (node : NodeSuccessRate) : Bytes := written node.hits ++ [32] ++ written node.misses

/-- Both members are `int64_t`. -/
def ofString (fromString : Bytes) : NodeSuccessRate :=
  let (hits,stream) := extract (-2^63) (2^63 - 1) 0 (some fromString)
  let (misses,_) := extract (-2^63) (2^63 - 1) 0 stream
  ⟨hits,misses⟩

theorem ofString_toString (hits misses : Nat) (fits : hits < 2^63 ∧ misses < 2^63) :
    ofString (toString ⟨hits,misses⟩) = ⟨hits,misses⟩ := by
  have first := extract_decimal (-2^63) (2^63 - 1) 0 hits ([32] ++ decimal misses) (by omega) rfl [] (by simp)
  have second := extract_decimal (-2^63) (2^63 - 1) 0 misses [] (by omega) (by decide) [32] space_blank
  simp only [List.nil_append,List.append_nil] at first second
  simp only [ofString,toString,written_natCast,List.append_assoc,first,second]

end NodeSuccessRate

structure NodesStatus where
  finished : Int
  failed : Int
  unfinished : Int
  deriving DecidableEq

namespace NodesStatus

def empty : NodesStatus := ⟨0,0,0⟩

/-- The members are `int`s and keep their values when the stream has failed. -/
def set (status : NodesStatus) (value : Bytes) : NodesStatus :=
  let (finished,stream) := extract (-2^31) (2^31 - 1) status.finished (some value)
  let (failed,stream) := extract (-2^31) (2^31 - 1) status.failed stream
  let (unfinished,_) := extract (-2^31) (2^31 - 1) status.unfinished stream
  ⟨finished,failed,unfinished⟩

theorem set_decimal (status : NodesStatus) (finished failed unfinished : Nat)
    (fits : finished < 2^31 ∧ failed < 2^31 ∧ unfinished < 2^31) :
    status.set (decimal finished ++ [32] ++ decimal failed ++ [32] ++ decimal unfinished) =
      ⟨finished,failed,unfinished⟩ := by
  have first := extract_decimal (-2^31) (2^31 - 1) status.finished finished
    ([32] ++ (decimal failed ++ ([32] ++ decimal unfinished))) (by omega) rfl [] (by simp)
  have second := extract_decimal (-2^31) (2^31 - 1) status.failed failed
    ([32] ++ decimal unfinished) (by omega) rfl [32] space_blank
  have third := extract_decimal (-2^31) (2^31 - 1) status.unfinished unfinished
    [] (by omega) (by decide) [32] space_blank
  simp only [List.nil_append,List.append_nil] at first third
  simp only [set,List.append_assoc,first,second,third]

end NodesStatus
end Dhtperf
