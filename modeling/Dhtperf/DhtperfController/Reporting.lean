import Dhtperf.DhtNode
import Dhtperf.Protocol
import Mathlib.Data.List.TakeWhile

/-! What a controller sends after `start` has returned: six reports, in one fixed order,
and the message that it is done. -/
namespace Dhtperf
open Library

structure Results where
  joinLatencyString : Bytes
  leaveLatencyString : Bytes
  putLatencyString : Bytes
  getLatencyString : Bytes
  joinSuccessRateString : Bytes
  getSuccessRateString : Bytes
  deriving DecidableEq

def DhtNode.getResults (text : PosixTime) (node : DhtNode) : Results where
  joinLatencyString := node.joinLatency.toString text
  leaveLatencyString := node.leaveLatency.toString text
  putLatencyString := node.putLatency.toString text
  getLatencyString := node.getLatency.toString text
  joinSuccessRateString := node.joinSuccessRate.toString
  getSuccessRateString := node.getSuccessRate.toString

namespace DhtperfController

/-- The messages of `reportResults`: types and values, as they are sent. -/
def reportResults (results : Results) : List (Bytes × Bytes) :=
  [(ascii "JoinLatency",results.joinLatencyString),(ascii "LeaveLatency",results.leaveLatencyString),
    (ascii "GetLatency",results.getLatencyString),(ascii "PutLatency",results.putLatencyString),
    (ascii "JoinSuccessRate",results.joinSuccessRateString),
    (ascii "GetSuccessRate",results.getSuccessRateString)]

def report (result : Bytes × Bytes) : Message := .report result.1 result.2

def messages (results : Results) : List Message := (reportResults results).map report ++ [.finish]

/-- What reaches the socket: a message that does not fit into its vector ends the process. -/
def script (order : ByteOrder) (results : Results) : List Message :=
  (messages results).takeWhile fun m => (m.body order).length < 2^32

def reported : Message → Option (Bytes × Bytes)
  | .report type value => some (type,value)
  | _ => none

theorem reported_map (reports : List (Bytes × Bytes)) : (reports.map report).filterMap reported = reports := by
  rw [List.filterMap_map]
  exact List.filterMap_some

variable (order : ByteOrder) (results : Results)

theorem script_fits : ∀ m ∈ script order results, (m.body order).length < 2^32 := by
  intro m member
  unfold script at member
  simpa using List.mem_takeWhile_imp member

theorem script_messages : script order results <+: messages results := List.takeWhile_prefix _

theorem script_cases (m : Message) (member : m ∈ script order results) :
    (∃ result ∈ reportResults results, m = report result) ∨ m = .finish := by
  rcases List.mem_append.mp ((script_messages order results).subset member) with reporting | last
  · obtain ⟨result,inside,rfl⟩ := List.mem_map.mp reporting
    exact Or.inl ⟨result,inside,rfl⟩
  · exact Or.inr (List.mem_singleton.mp last)

def resultTypes : List Bytes :=
  [ascii "JoinLatency",ascii "LeaveLatency",ascii "GetLatency",ascii "PutLatency",ascii "JoinSuccessRate",
    ascii "GetSuccessRate"]

theorem report_types : (reportResults results).map (·.1) = resultTypes := rfl

theorem types_known (result : Bytes × Bytes) (member : result ∈ reportResults results) : result.1 ∈ resultTypes :=
  report_types results ▸ List.mem_map_of_mem member

theorem types_plain : ∀ type ∈ resultTypes, 32 ∉ type := by decide

theorem script_plain : ∀ m ∈ script order results, m.Plain := by
  intro m member
  rcases script_cases order results m member with ⟨result,inside,rfl⟩ | rfl
  · exact types_plain result.1 (types_known results result inside)
  · trivial

theorem script_sized : ∀ m ∈ script order results, m.Sized := by
  intro m member
  rcases script_cases order results m member with ⟨result,inside,rfl⟩ | rfl
  · trivial
  · trivial

theorem finish_last (heard : List Message) (part : heard ++ [.finish] <+: script order results) :
    heard = (reportResults results).map report := by
  have whole : heard ++ [.finish] <+: messages results := part.trans (script_messages order results)
  obtain ⟨others,shape⟩ := whole
  by_cases short : others = []
  · rw [short,List.append_nil] at shape
    exact (List.append_inj' shape rfl).1
  · -- Otherwise the Finish message would be one of the reports.
    have before : heard ++ [.finish] <+: (reportResults results).map report := by
      refine List.prefix_of_prefix_length_le ⟨others,shape⟩ ⟨[.finish],rfl⟩ ?_
      have total := congrArg List.length shape
      have some := List.length_pos_iff.mpr short
      simp only [messages,List.length_append,List.length_singleton] at total ⊢
      omega
    have inside : Message.finish ∈ (reportResults results).map report :=
      before.subset (List.mem_append_right heard (List.mem_singleton.mpr rfl))
    obtain ⟨result,_,same⟩ := List.mem_map.mp inside
    cases same

end DhtperfController
end Dhtperf
