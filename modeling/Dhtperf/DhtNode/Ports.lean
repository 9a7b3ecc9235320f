import Dhtperf.DhtNode

/-! Where a node listens and where it joins. Each wrapper turns the offset that the master
has counted into a port of its own. -/
namespace Dhtperf

/-- The subclasses of `DhtNode` in the directory of wrappers. -/
inductive Wrapper
  | dummyDht
  | genericRuby
  | kaddemo
  | openchord
  | owdhtshell
  | pastConsole
  deriving DecidableEq

namespace Wrapper

/-- The sums are of `int`s, and are cut to 16 bits when they are returned. -/
def portOffsetToPort : Wrapper → UInt16 → UInt16
  | .dummyDht,offset => offset
  | .genericRuby,offset => offset * 2 + 5000
  | .kaddemo,offset => offset * 2 + 5000
  | .openchord,offset => offset + 5000
  | .owdhtshell,offset => offset + 5000
  | .pastConsole,offset => offset + 5000

/-- Below this many offsets no port is cut. -/
def offsets : Nat := 30000

theorem kaddemo_port (offset : UInt16) (small : offset.toNat < offsets) :
    (kaddemo.portOffsetToPort offset).toNat = offset.toNat * 2 + 5000 := by
  have all : offset.toNat * 2 + 5000 < 2^16 := by
    unfold offsets at small
    omega
  rw [portOffsetToPort,UInt16.toNat_add,UInt16.toNat_mul]
  simp only [UInt16.reduceToNat]
  omega

theorem ports_distinct (wrapper : Wrapper) (first second : UInt16) (left : first.toNat < offsets)
    (right : second.toNat < offsets) (different : first ≠ second) :
    wrapper.portOffsetToPort first ≠ wrapper.portOffsetToPort second := by
  intro same
  apply different
  cases wrapper with
  | dummyDht => exact same
  | genericRuby | kaddemo =>
    have ports := congrArg UInt16.toNat same
    have first_port := kaddemo_port first left
    have second_port := kaddemo_port second right
    simp only [portOffsetToPort] at ports first_port second_port
    exact UInt16.toNat_inj.mp (by omega)
  | openchord | owdhtshell | pastConsole => exact (UInt16.add_left_inj 5000).mp same

end Wrapper

namespace DhtNode

def setEntryPoint (node : DhtNode) (wrapper : Wrapper) (host : Bytes) (portOffset : UInt16) : DhtNode :=
  {node with entryPointHost := host, entryPointPort := wrapper.portOffsetToPort portOffset}

def setSelfPortOffset (node : DhtNode) (wrapper : Wrapper) (portOffset : UInt16) : DhtNode :=
  {node with selfPort := wrapper.portOffsetToPort portOffset}

def nodeStartsNewDht (node : DhtNode) : Bool := node.entryPointHost == []

/-- The `int` that the id server of the Kaddemo wrapper listens at. -/
def idPort (node : DhtNode) : Nat := node.selfPort.toNat + 1

end DhtNode
end Dhtperf
