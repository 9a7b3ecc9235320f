import Dhtperf.DhtNode.Ports
import Dhtperf.DhtperfController.Reading
import Dhtperf.DhtperfMaster.Moves
import Mathlib.Data.List.Forall2

/-! Ports from the offsets that the master counts in a map while it sends the Start
messages, to the nodes that set them. -/
namespace Dhtperf
open Library

namespace DhtperfMaster

abbrev NodesPerHost := Std.TreeMap Bytes Int compare

def countNode (nodesPerHost : NodesPerHost) (nodeHost : Bytes) : NodesPerHost :=
  if nodesPerHost.contains nodeHost then nodesPerHost.insert nodeHost (nodesPerHost.getD nodeHost 0 + 1)
  else nodesPerHost.insert nodeHost 1

/-- The messages that the loop of `sendStartMessages` makes from some node on. -/
def startMessages (workload : MasterWorkload) (addresses : List Bytes) :
    Nat → NodesPerHost → List Bytes → List Message
  | _,_,[] => []
  | i,nodesPerHost,nodeHost :: rest =>
    let entryPointNodeNumber := MasterWorkload.getNodeEntryPointHost i
    let entryPointHost := if i = 0 then [] else addresses.getD entryPointNodeNumber []
    -- The port offset of the entry point is not looked up.
    let entryPointPortOffset := 0
    let nodesPerHost := countNode nodesPerHost nodeHost
    let nodePortOffset := UInt16.ofInt (nodesPerHost.getD nodeHost 0 - 1)
    .start workload.duration entryPointHost entryPointPortOffset nodePortOffset ::
      startMessages workload addresses (i+1) nodesPerHost rest

theorem countNode_getD (nodesPerHost : NodesPerHost) (nodeHost host : Bytes) :
    (countNode nodesPerHost nodeHost).getD host 0 =
      nodesPerHost.getD host 0 + if nodeHost = host then 1 else 0 := by
  have inserted (count : Int) : (nodesPerHost.insert nodeHost count).getD host 0 =
      if nodeHost = host then count else nodesPerHost.getD host 0 := by
    simp only [Std.TreeMap.getD_insert,Std.LawfulEqOrd.compare_eq_iff_eq]
  unfold countNode
  by_cases known : nodesPerHost.contains nodeHost
  · rw [if_pos known,inserted]
    split
    next same => rw [same]
    next => exact (add_zero _).symm
  · have none : nodesPerHost.getD nodeHost 0 = 0 :=
      Std.TreeMap.getD_eq_fallback_of_contains_eq_false (by rwa [Bool.not_eq_true] at known)
    rw [if_neg known,inserted]
    split
    next same =>
      rw [← same,none]
      rfl
    next => exact (add_zero _).symm

theorem offset_counted (count : Nat) : UInt16.ofInt ((count : Int) + 1 - 1) = UInt16.ofNat count := by
  rw [Int.add_sub_cancel]
  exact UInt16.toNat_inj.mp (by rw [UInt16.ofInt,UInt16.toNat_ofNat',UInt16.toNat_ofNat']; omega)

theorem startMessages_eq (workload : MasterWorkload) (addresses earlier rest : List Bytes) (nodesPerHost : NodesPerHost)
    (all : addresses = earlier ++ rest) (counted : ∀ host, nodesPerHost.getD host 0 = earlier.count host) :
    startMessages workload addresses earlier.length nodesPerHost rest =
      (List.range' earlier.length rest.length).map (startMessage workload addresses) := by
  induction rest generalizing earlier nodesPerHost with
  | nil => rfl
  | cons nodeHost rest ih =>
    have grown : ∀ host, (countNode nodesPerHost nodeHost).getD host 0 = ((earlier ++ [nodeHost]).count host : Nat) := by
      intro host
      rw [countNode_getD,counted,List.count_append,List.count_singleton]
      simp
    have next := ih (earlier ++ [nodeHost]) _ (by simp [all]) grown
    rw [List.length_append,List.length_singleton] at next
    have here : addresses.getD earlier.length [] = nodeHost := by simp [all]
    have before : addresses.take earlier.length = earlier := by simp [all]
    rw [List.length_cons,List.range'_succ,List.map_cons,← next,startMessages,startMessage,here,before]
    rw [countNode_getD,counted,if_pos rfl,offset_counted]

end DhtperfMaster

namespace DhtperfController

/-- What `waitForStartMessage` sets: the duration of the profile and the ports of the node. -/
def setStart (wrapper : Wrapper) (node : DhtNode) : Message → TimeUnit × DhtNode
  | .start duration entryPointHost entryPointPortOffset selfPortOffset =>
    (duration,(node.setEntryPoint wrapper entryPointHost entryPointPortOffset).setSelfPortOffset wrapper selfPortOffset)
  -- The opcode that was asked for makes it a Start message.
  | _ => (0,node)

def waitForStartMessage (order : ByteOrder) (wrapper : Wrapper) (node : DhtNode) (incoming : Incoming) :
    Option (Except Exit (TimeUnit × DhtNode) × Incoming) := do
  let (message,incoming) ← getNextMessage order Opcode.start incoming
  return (message.map (setStart wrapper node),incoming)

theorem waitForStartMessage_bits (order : ByteOrder) (wrapper : Wrapper) (node : DhtNode) (workload : MasterWorkload)
    (addresses : List Bytes) (i : Nat) (bits later : Bytes) (ended : Bool)
    (sent : (DhtperfMaster.startMessage workload addresses i).toBits order = .ok bits) :
    waitForStartMessage order wrapper node ⟨bits ++ later,ended⟩ =
      some (.ok (setStart wrapper node (DhtperfMaster.startMessage workload addresses i)),⟨later,ended⟩) := by
  obtain ⟨rfl,fits⟩ := Message.toBits_bits order _ bits sent
  have got := getNextMessage_bits order (DhtperfMaster.startMessage workload addresses i) later ended fits trivial trivial
  unfold waitForStartMessage
  rw [show Opcode.start = (DhtperfMaster.startMessage workload addresses i).opcode from rfl,got]
  rfl

end DhtperfController

namespace DhtperfMaster

def startedNode (wrapper : Wrapper) (workload : MasterWorkload) (addresses : List Bytes) (i : Nat) : DhtNode :=
  (DhtperfController.setStart wrapper .make (startMessage workload addresses i)).2

/-- The nodes find the one DHT and do not take each other's ports. -/
structure PortsAgree (wrapper : Wrapper) (addresses : List Bytes) (nodes : List DhtNode) : Prop where
  creator : ∀ (i : Nat) (node : DhtNode), nodes[i]? = some node → (node.nodeStartsNewDht = true ↔ i = 0)
  entry : ∀ (i : Nat) (node first : DhtNode), nodes[i]? = some node → nodes[0]? = some first → i ≠ 0 →
    addresses[0]? = some node.entryPointHost ∧ node.entryPointPort = first.selfPort
  selves : ∀ (i j : Nat) (node other : DhtNode), nodes[i]? = some node → nodes[j]? = some other →
    addresses[i]? = addresses[j]? → i ≠ j → node.selfPort ≠ other.selfPort
  ids : wrapper = .kaddemo → ∀ (i j : Nat) (node other : DhtNode), nodes[i]? = some node → nodes[j]? = some other →
    addresses[i]? = addresses[j]? → i ≠ j → node.idPort ≠ other.selfPort.toNat ∧ node.idPort ≠ other.idPort

def Starts (order : ByteOrder) (wrapper : Wrapper) (duration : TimeUnit) (c : ControllerConnection)
    (node : DhtNode) : Prop :=
  ∃ message bits, c.sent.getLast? = some message ∧ message.toBits order = .ok bits ∧ ∀ later ended,
    DhtperfController.waitForStartMessage order wrapper .make ⟨bits ++ later,ended⟩ =
      some (.ok (duration,node),⟨later,ended⟩)

theorem count_next (addresses : List Bytes) (i : Nat) (address : Bytes) (here : addresses[i]? = some address) :
    (addresses.take (i+1)).count address = (addresses.take i).count address + 1 := by
  rw [List.take_add_one,here,List.count_append]
  simp

/-- The offset of a node is below the number of nodes on its host, and grows along them. -/
theorem offsets_ordered (addresses : List Bytes) (i j : Nat) (address : Bytes) (before : i < j)
    (first : addresses[i]? = some address) :
    (addresses.take i).count address < (addresses.take j).count address := by
  have next := count_next addresses i address first
  have longer : (addresses.take (i+1)).count address ≤ (addresses.take j).count address :=
    (List.take_sublist_take_left before).count_le address
  omega

theorem offset_below (addresses : List Bytes) (i : Nat) (address : Bytes) (here : addresses[i]? = some address)
    (fewer : addresses.count address ≤ 30000) :
    (UInt16.ofNat ((addresses.take i).count address)).toNat = (addresses.take i).count address ∧
      (UInt16.ofNat ((addresses.take i).count address)).toNat < Wrapper.offsets := by
  have next := count_next addresses i address here
  have less := (List.take_sublist (i+1) addresses).count_le address
  have below : (addresses.take i).count address < 30000 := by omega
  have value := UInt16.toNat_ofNat_of_lt' (below.trans (by decide))
  exact ⟨value,value.symm ▸ below⟩

theorem offsets_distinct (addresses : List Bytes) (i j : Nat) (address : Bytes)
    (first : addresses[i]? = some address) (second : addresses[j]? = some address)
    (fewer : addresses.count address ≤ 30000) (different : i ≠ j) :
    UInt16.ofNat ((addresses.take i).count address) ≠ UInt16.ofNat ((addresses.take j).count address) := by
  intro same
  have counts := congrArg UInt16.toNat same
  rw [(offset_below addresses i address first fewer).1,(offset_below addresses j address second fewer).1] at counts
  obtain before | after := Nat.lt_or_gt_of_ne different
  · exact absurd counts (offsets_ordered addresses i j address before first).ne
  · exact absurd counts (offsets_ordered addresses j i address after second).ne'

theorem startedNode_selfPort (wrapper : Wrapper) (workload : MasterWorkload) (addresses : List Bytes) (i : Nat)
    (address : Bytes) (here : addresses[i]? = some address) :
    (startedNode wrapper workload addresses i).selfPort =
      wrapper.portOffsetToPort (UInt16.ofNat ((addresses.take i).count address)) := by
  have known : addresses.getD i [] = address := by rw [List.getD_eq_getElem?_getD,here,Option.getD_some]
  rw [← known]
  rfl

theorem started_agree (wrapper : Wrapper) (workload : MasterWorkload) (addresses : List Bytes)
    (named : ∀ address ∈ addresses, address ≠ []) (fewer : ∀ address, addresses.count address ≤ 30000) :
    PortsAgree wrapper addresses ((List.range addresses.length).map (startedNode wrapper workload addresses)) := by
  have made {i : Nat} {node : DhtNode}
      (found : ((List.range addresses.length).map (startedNode wrapper workload addresses))[i]? = some node) :
      ∃ address, addresses[i]? = some address ∧ node = startedNode wrapper workload addresses i := by
    rw [List.getElem?_map,Option.map_eq_some_iff] at found
    obtain ⟨k,ranged,rfl⟩ := found
    obtain ⟨inside,rfl⟩ := List.getElem?_eq_some_iff.mp ranged
    rw [List.length_range] at inside
    exact ⟨addresses[i],List.getElem?_eq_getElem inside,by rw [List.getElem_range]⟩
  have headed {i : Nat} (entry : i ≠ 0) : (startedNode wrapper workload addresses i).entryPointHost =
      addresses.getD 0 [] := if_neg entry
  refine ⟨?_,?_,?_,?_⟩
  · intro i node found
    obtain ⟨address,here,rfl⟩ := made found
    constructor
    · intro starts
      by_contra entry
      have empty : addresses.getD 0 [] = [] := headed entry ▸ beq_iff_eq.mp starts
      cases addresses with
      | nil => cases here
      | cons first rest => exact named first List.mem_cons_self empty
    · rintro rfl
      rfl
  · intro i node first found foundFirst entry
    obtain ⟨address,here,rfl⟩ := made found
    obtain ⟨head,known,rfl⟩ := made foundFirst
    rw [headed entry,List.getD_eq_getElem?_getD,known]
    exact ⟨rfl,rfl⟩
  · intro i j node other found foundOther same different
    obtain ⟨address,here,rfl⟩ := made found
    obtain ⟨_,_,rfl⟩ := made foundOther
    have there := same ▸ here
    rw [startedNode_selfPort wrapper workload addresses i address here,
      startedNode_selfPort wrapper workload addresses j address there]
    have first := offset_below addresses i address here (fewer address)
    have second := offset_below addresses j address there (fewer address)
    exact wrapper.ports_distinct _ _ first.2 second.2
      (offsets_distinct addresses i j address here there (fewer address) different)
  · intro kaddemo i j node other found foundOther same different
    obtain ⟨address,here,rfl⟩ := made found
    obtain ⟨_,_,rfl⟩ := made foundOther
    have there := same ▸ here
    have first := offset_below addresses i address here (fewer address)
    have second := offset_below addresses j address there (fewer address)
    have apart := offsets_distinct addresses i j address here there (fewer address) different
    subst kaddemo
    have port := Wrapper.kaddemo_port _ first.2
    have otherPort := Wrapper.kaddemo_port _ second.2
    have unequal : (UInt16.ofNat ((addresses.take i).count address)).toNat ≠
      (UInt16.ofNat ((addresses.take j).count address)).toNat := fun equal => apart (UInt16.toNat_inj.mp equal)
    unfold DhtNode.idPort
    rw [startedNode_selfPort .kaddemo workload addresses i address here,
      startedNode_selfPort .kaddemo workload addresses j address there,port,otherPort]
    -- A port of a node is even and the port of an id server is odd.
    omega

/-- The messages leave with the offsets of the map, and the nodes that they start agree. -/
theorem ports_agree (platform : Platform) (luck : AcceptLuck) (workload : MasterWorkload) (wrapper : Wrapper)
    (controllers after : List ControllerConnection) (present : controllers ≠ [])
    (named : ∀ c ∈ controllers, c.address ≠ [])
    (fewer : ∀ address, (controllers.map (·.address)).count address ≤ 30000)
    (sent : sendStartMessages platform luck (startMessage workload (controllers.map (·.address))) 0 controllers =
      .ok after) :
    after.map (·.sent.getLast?) =
        (startMessages workload (controllers.map (·.address)) 0 ∅ (controllers.map (·.address))).map some ∧
      ∃ nodes, nodes ≠ [] ∧ PortsAgree wrapper (controllers.map (·.address)) nodes ∧
        List.Forall₂ (Starts platform.order wrapper workload.duration) after nodes := by
  let addresses := controllers.map (·.address)
  obtain ⟨length,each⟩ := sendStartMessages_each platform luck _ 0 controllers after sent
  have size : addresses.length = after.length := by rw [List.length_map,length]
  have last (k : Nat) (c : ControllerConnection) (found : after[k]? = some c) :
      c.sent.getLast? = some (startMessage workload addresses k) ∧
        ∃ bits, (startMessage workload addresses k).toBits platform.order = .ok bits := by
    obtain ⟨old,bits,_,written,rfl⟩ := each k c found
    rw [Nat.zero_add] at written ⊢
    exact ⟨List.getLast?_concat,bits,written⟩
  have counted := startMessages_eq workload addresses [] addresses ∅ rfl fun host => by
    rw [Std.TreeMap.getD_emptyc]
    rfl
  rw [List.length_nil,← List.range_eq_range'] at counted
  refine ⟨?_,(List.range addresses.length).map (startedNode wrapper workload addresses),?_,
    started_agree wrapper workload addresses ?_ fewer,List.forall₂_iff_get.mpr ⟨?_,?_⟩⟩
  · rw [counted]
    apply List.ext_getElem
    · simp [size]
    · intro k inside _
      rw [List.length_map] at inside
      simp only [List.getElem_map,List.getElem_range]
      exact (last k _ (List.getElem?_eq_getElem inside)).1
  · simpa [addresses] using present
  · simpa [addresses] using named
  · simp [size]
  · intro k inside _
    obtain ⟨told,bits,written⟩ := last k _ (List.getElem?_eq_getElem inside)
    refine ⟨_,bits,told,written,fun later ended => ?_⟩
    rw [DhtperfController.waitForStartMessage_bits platform.order wrapper .make workload addresses k bits later ended written]
    simp [startedNode,DhtperfController.setStart,startMessage]

theorem shared_host : ∃ after nodes, nodes ≠ [] ∧ PortsAgree .kaddemo [ascii "a",ascii "b",ascii "a"] nodes ∧
    List.Forall₂ (Starts .little .kaddemo 10) after nodes := by
  obtain ⟨after,sent,_⟩ := ok_of_any
    (sendStartMessages ⟨.little,NodeLatency.oneDay,.intact⟩ ⟨fun _ => true,4,100,fun _ => 100⟩
      (startMessage ⟨3,10,[],fun _ => none⟩ [ascii "a",ascii "b",ascii "a"]) 0
      [.make 4 (ascii "a"),.make 5 (ascii "b"),.make 6 (ascii "a")]) (fun _ => true) (by decide +kernel)
  exact ⟨after,(ports_agree _ _ ⟨3,10,[],fun _ => none⟩ .kaddemo
    [.make 4 (ascii "a"),.make 5 (ascii "b"),.make 6 (ascii "a")] after nofun (by decide)
    (fun address => List.count_le_length.trans (by decide)) sent).2⟩

end DhtperfMaster
end Dhtperf
