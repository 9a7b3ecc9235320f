import Dhtperf.MasterWorkload.Rejections

/-! Which profile a node gets. A `default-profile` line writes the entries of the nodes
that are known when it is read, so it replaces what earlier lines say about them and says
nothing about nodes that a later line adds. -/
namespace Dhtperf
open Library

namespace MasterWorkload

theorem loaded_reader (file : Bytes) (given : UInt32) (workload : MasterWorkload)
    (loaded : loadConfig file given = .ok (some workload)) : ∃ reader : Reader, reader.workload = workload ∧
      Faithful given (matchedLines file) reader ∧ Complete given (matchedLines file) reader := by
  obtain ⟨read,lines,ok⟩ := bind_ok loaded
  have outcome := processLines_outcome given [] _ (configLines file) (Faithful.start given) (Complete.start given)
  rw [lines] at outcome
  obtain ⟨_,after,same,faithful,complete⟩ | ⟨before,line,rest,_,_,ends⟩ := outcome
  · cases same
    refine ⟨after,?_,faithful,complete⟩
    simp only at ok
    split at ok
    next => cases ok; rfl
    next => cases ok
  · cases ends
    cases ok

/-- The last line about a node names its profile, whatever the order of the lines is. -/
theorem getNodeProfile_iff (file : Bytes) (given : UInt32) (workload : MasterWorkload)
    (loaded : loadConfig file given = .ok (some workload)) (i : Nat) (node : i < workload.nodes.toNat) (name : Bytes) :
    (∃ p, workload.getNodeProfile i = some p ∧ p.name = name) ↔
      NamedBy given (matchedLines file) (UInt32.ofNat i) name := by
  obtain ⟨reader,rfl,faithful,complete⟩ := loaded_reader file given workload loaded
  obtain ⟨p,profile⟩ := valid_profile reader.workload (loadConfig_valid file given _ loaded) i node
  obtain ⟨assigned,entry,found⟩ := Option.bind_eq_some_iff.mp profile
  have named := profileNamed_name reader.workload assigned p found
  constructor
  · rintro ⟨other,same,rfl⟩
    cases profile.symm.trans same
    rw [named]
    exact faithful.named _ assigned entry
  · intro told
    have entry' := complete.named _ name told
    cases entry.symm.trans entry'
    exact ⟨p,profile,named⟩

def overriddenFile : Bytes :=
  ascii "nodes 2\nduration 10\nprofile p\njoin exact 0\nleave none\nput none\nget none\nprofile q\njoin exact 1\nleave none\nput none\nget none\nnode 0 q\ndefault-profile p\n"

theorem overriddenFile_loaded : ∃ workload p, loadConfig overriddenFile 0 = .ok (some workload) ∧
    0 < workload.nodes.toNat ∧ workload.getNodeProfile 0 = some p ∧ p.name = ascii "p" := by
  obtain ⟨read,loaded,shape⟩ := ok_of_any (loadConfig overriddenFile 0)
    (fun read => read.any fun workload => (workload.getNodeProfile 0).any (·.name = ascii "p")) (by decide +kernel)
  obtain ⟨workload,rfl,entry⟩ := (Option.any_eq_true _ _).mp shape
  obtain ⟨p,profile,named⟩ := (Option.any_eq_true _ _).mp entry
  exact ⟨workload,p,loaded,valid_nodes workload (loadConfig_valid _ _ _ loaded),profile,of_decide_eq_true named⟩

theorem overridden_named : NamedBy 0 (matchedLines overriddenFile) 0 (ascii "p") := by
  obtain ⟨workload,p,loaded,node,profile,named⟩ := overriddenFile_loaded
  exact (getNodeProfile_iff overriddenFile 0 workload loaded 0 node _).mp ⟨p,profile,named⟩

/-- The name by precedence: the last `node` line about the node, else the last default. -/
def nameByPrecedence (lines : List ConfigLine) (i : UInt32) : Option Bytes :=
  (lines.reverse.findSome? fun
    | .node id name => if lexicalCastUnsigned id = some i then some name else none
    | _ => none) <|>
  lines.reverse.findSome? fun
    | .defaultProfile name => some name
    | _ => none

theorem default_overrides : ∃ workload p, loadConfig overriddenFile 0 = .ok (some workload) ∧
    0 < workload.nodes.toNat ∧ workload.getNodeProfile 0 = some p ∧
      nameByPrecedence (matchedLines overriddenFile) 0 ≠ some p.name := by
  obtain ⟨workload,p,loaded,node,profile,named⟩ := overriddenFile_loaded
  have precedence : nameByPrecedence (matchedLines overriddenFile) 0 = some (ascii "q") := by decide +kernel
  refine ⟨workload,p,loaded,node,profile,?_⟩
  rw [precedence,named]
  decide

end MasterWorkload
end Dhtperf
