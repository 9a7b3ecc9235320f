import Dhtperf.Service.Exchange
import Mathlib.Algebra.BigOperators.Group.Finset.Basic

/-! Does everybody get an answer? Only a start without a word can keep the daemon waiting, and
it does so until its client gives up. -/
namespace Dhtperf.Service
open Library Relation

namespace ClientPc

def weight : ClientPc → Nat
  | .version => 2
  | .reply => 1
  | _ => 0

end ClientPc

namespace Exchange

section
variable (version : Bytes) (requests : List ClientCommand)

def weight (i : Nat) (peer : Peer) : Nat :=
  (if peer.pc = .connecting then ((requests[i]?.map ClientCommand.text).getD []).length + 4 else peer.pc.weight) +
    peer.sending.length + peer.replying.length +
    if peer.closed then 0 else (ClientCommand.answer version .version).length + 1

def remaining (s : Exchange) : Nat :=
  (Finset.range requests.length).sum (fun i => weight version requests i (s.peers i)) + s.backlog.length

theorem setPeer_remaining (s : Exchange) (i : Nat) (bound : i < requests.length) (peer : Peer) :
    remaining version requests (s.setPeer i peer) + weight version requests i (s.peers i) =
      remaining version requests s + weight version requests i peer := by
  have member := Finset.mem_range.mpr bound
  have own := Finset.add_sum_erase (Finset.range requests.length) (fun i => weight version requests i (s.peers i)) member
  have after := Finset.add_sum_erase (Finset.range requests.length)
    (fun j => weight version requests j ((s.setPeer i peer).peers j)) member
  have others : ((Finset.range requests.length).erase i).sum
      (fun j => weight version requests j ((s.setPeer i peer).peers j)) =
      ((Finset.range requests.length).erase i).sum fun j => weight version requests j (s.peers j) := by
    refine Finset.sum_congr rfl fun j other => ?_
    change weight version requests j (Function.update s.peers i peer j) = _
    rw [Function.update_of_ne (Finset.ne_of_mem_erase other)]
  have here : (s.setPeer i peer).peers i = peer := Function.update_self ..
  have backlog : (s.setPeer i peer).backlog = s.backlog := rfl
  rw [others,here] at after
  simp only [remaining,backlog]
  omega

variable (s after : Exchange)

theorem peer_remaining (i : Nat) (bound : i < requests.length) (peer : Peer)
    (less : weight version requests i peer < weight version requests i (s.peers i)) :
    remaining version requests (s.setPeer i peer) < remaining version requests s := by
  have same := setPeer_remaining version requests s i bound peer
  omega

omit s after in
theorem hear_weight (i : Nat) (peer after : Peer) (heard : peer.hear = some after) :
    weight version requests i after < weight version requests i peer := by
  obtain ⟨pc,sending,arrived,replying,received,closed⟩ := peer
  unfold Peer.hear at heard
  split at heard
  next =>
    cases read : readWord (some received) with
    | mk word stream =>
      simp only [read] at heard
      cases pc with
      | version => cases stream <;> cases heard <;> simp [weight,ClientPc.weight]
      | reply =>
        cases heard
        dsimp only [weight]
        split <;> simp [ClientPc.weight]
      | connecting => cases heard
      | acknowledged => cases heard
      | wrong => cases heard
      | timedOut => cases heard
  next => cases heard

omit requests s after in
theorem reply_length (controllerNumber : Nat) (command : ClientCommand) :
    (handleClient version controllerNumber command.text).reply.length ≤ (ClientCommand.answer version .version).length := by
  rw [(command.text_served version controllerNumber).1]
  split
  · exact Nat.zero_le _
  · have longest : (msgAck ++ [10]).length ≤ (version ++ [10] ++ (msgAck ++ [10])).length :=
      (List.suffix_append _ _).length_le
    cases command with
    | version => exact le_rfl
    | _ => exact longest

theorem step_remaining (kept : Kept version requests s) (step : Step version requests s after) :
    remaining version requests after < remaining version requests s := by
  obtain ⟨action,_,acted⟩ := step
  have inside (i : Nat) (some : s.peers i ≠ .make) : i < requests.length := by
    obtain ⟨command,here⟩ := command_of version requests s kept i some
    exact (List.getElem?_eq_some_iff.mp here).1
  cases action with
  | connect i =>
    simp only [act] at acted
    split at acted
    next command here =>
      split at acted
      next at_start =>
        cases acted
        obtain ⟨fresh,_,_⟩ := (kept.standing i command here).connecting at_start
        have same := setPeer_remaining version requests s i (List.getElem?_eq_some_iff.mp here).1 (.connected command)
        have before : weight version requests i (s.peers i) =
            command.text.length + 4 + ((ClientCommand.answer version .version).length + 1) := by
          rw [fresh]
          simp [weight,Peer.make,here]
        have less : weight version requests i (.connected command) ≤
            2 + command.text.length + ((ClientCommand.answer version .version).length + 1) := by
          rcases connected_pc command with first | first <;> rw [weight,first] <;> simp [Peer.connected,ClientPc.weight]
        have longer : remaining version requests
            {s.setPeer i (.connected command) with backlog := s.backlog ++ [i]} =
              remaining version requests (s.setPeer i (.connected command)) + 1 := by
          simp only [remaining,List.length_append,List.length_singleton,← Nat.add_assoc]
          rfl
        refine lt_of_eq_of_lt longer ?_
        omega
      next => cases acted
    next => cases acted
  | refuse i =>
    simp only [act] at acted
    split at acted
    next fine =>
      cases acted
      refine peer_remaining version requests s i fine.1 _ ?_
      simp [weight,fine.2,ClientPc.weight]
    next => cases acted
  | timeout i =>
    simp only [act] at acted
    split at acted
    next fine =>
      cases acted
      refine peer_remaining version requests s i fine.1 _ ?_
      obtain ⟨_,going⟩ := fine
      cases here : (s.peers i).pc <;> rw [here] at going <;> simp [weight,here,ClientPc.weight,ClientPc.hungUp] at going ⊢
    next => cases acted
  | carry i =>
    simp only [act] at acted
    split at acted
    next => cases acted
    next byte rest here =>
      cases acted
      refine peer_remaining version requests s i (inside i (by intro none; rw [none] at here; cases here)) _ ?_
      simp [weight,here]
  | carryBack i =>
    simp only [act] at acted
    split at acted
    next => cases acted
    next byte rest here =>
      cases acted
      refine peer_remaining version requests s i (inside i (by intro none; rw [none] at here; cases here)) _ ?_
      simp [weight,here]
  | hear i =>
    obtain ⟨peer,heard,rfl⟩ := Option.map_eq_some_iff.mp acted
    refine peer_remaining version requests s i (inside i (by intro none; rw [none] at heard; cases heard)) _ ?_
    exact hear_weight version requests i (s.peers i) peer heard
  | accept =>
    simp only [act] at acted
    split at acted
    next i rest free waiting =>
      cases acted
      simp [remaining,waiting]
    next => cases acted
  | serve =>
    simp only [act] at acted
    split at acted
    next i here =>
      split at acted
      next enough =>
        cases acted
        have waiting : i ∈ s.pending := by simp [pending,here]
        have bound := kept.known i (List.mem_append_right _ waiting)
        have asked := List.getElem?_eq_getElem bound
        obtain ⟨same,_⟩ := served_whole version requests s kept i _ s.controllerNumber asked waiting enough
        obtain ⟨silent,opened⟩ := (kept.standing i _ asked).unanswered waiting
        rw [same]
        refine peer_remaining version requests s i bound _ ?_
        have short := reply_length version s.controllerNumber requests[i]
        simp only [weight,silent,opened,List.length_nil,if_true]
        simp
        omega
      next => cases acted
    next => cases acted

/-! ### What can hold things up -/

end

end Exchange
end Dhtperf.Service
