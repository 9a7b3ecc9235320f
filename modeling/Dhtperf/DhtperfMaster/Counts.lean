import Dhtperf.DhtperfMaster.Moves
import Dhtperf.Metrics.NodeSuccessRate
import Mathlib.Data.Fintype.Card
import Mathlib.Data.List.NodupEquivFin

/-! The numbers the master keeps about its controllers. A controller that has been
greeted is either being read, with exactly one read, or has been counted. -/
namespace Dhtperf
open Library Relation

theorem countP_add_log {α : Type} (p : α → Bool) (xs : List α) (log : List Nat) (distinct : log.Nodup)
    (inside : ∀ i ∈ log, i < xs.length) (each : ∀ (i : Nat) (x : α), xs[i]? = some x → (p x = true ↔ i ∉ log)) :
    xs.countP p + log.length = xs.length := by
  have indexed : xs.countP p = (List.range xs.length).countP fun i => decide (i ∉ log) := by
    have listed : xs.map some = (List.range xs.length).map (xs[·]?) := by
      apply List.ext_getElem?
      intro i
      by_cases bound : i < xs.length
      · simp [bound]
      · simp [Nat.not_lt.mp bound]
    calc xs.countP p = (xs.map some).countP fun x => x.any p := by rw [List.countP_map]; rfl
      _ = (List.range xs.length).countP fun i => (xs[i]?).any p := by rw [listed,List.countP_map]; rfl
      _ = _ := List.countP_congr fun i member => by
        have bound := List.mem_range.mp member
        have here := List.getElem?_eq_getElem bound
        rw [here,decide_eq_true_eq]
        exact each i _ here
  have logged : log.length = (List.range xs.length).countP fun i => decide (i ∈ log) := by
    rw [List.countP_eq_length_filter]
    refine ((List.perm_ext_iff_of_nodup distinct (List.nodup_range.filter _)).mpr fun i => ?_).length_eq
    rw [List.mem_filter,List.mem_range,decide_eq_true_eq]
    exact ⟨fun member => ⟨inside i member,member⟩,And.right⟩
  have whole := List.length_eq_countP_add_countP (fun i => decide (i ∈ log)) (l := List.range xs.length)
  simp only [List.length_range,decide_eq_true_eq] at whole
  rw [indexed,logged]
  omega

theorem log_full (n : Nat) (log : List Nat) (distinct : log.Nodup) (inside : ∀ i ∈ log, i < n) :
    log.length = n ↔ ∀ i < n, i ∈ log := by
  have below : log ⊆ List.range n := fun i member => List.mem_range.mpr (inside i member)
  constructor
  · intro full i bound
    have whole := (distinct.subperm below).perm_of_length_le (by rw [full,List.length_range])
    exact whole.mem_iff.mpr (List.mem_range.mpr bound)
  · intro all
    have above : List.range n ⊆ log := fun i member => all i (List.mem_range.mp member)
    have least := (List.nodup_range.subperm above).length_le
    have most := (distinct.subperm below).length_le
    rw [List.length_range] at least most
    omega

namespace DhtperfMaster

/-- How the counters and the pending reads belong together. -/
structure Counts (m : DhtperfMaster) : Prop where
  descriptors : (m.acceptor :: m.controllers.map (·.descriptor)).Nodup
  size : if m.startMessagesSent then m.controllers.length = m.workload.nodes.toNat ∧ m.accepts = 0
    else m.controllers.length < m.workload.nodes.toNat ∧ m.accepts = 1
  each : ∀ (i : Nat) (c : ControllerConnection), m.controllers[i]? = some c →
    c.reads.length + m.finishedLog.count i = if m.startMessagesSent then 1 else 0
  members : ∀ i ∈ m.finishedLog, i < m.controllers.length
  among : m.failedLog.Sublist m.finishedLog
  finished : m.finishedControllers.toNat = m.finishedLog.length
  failed : m.failedControllers.toNat = m.failedLog.length
  stop : m.pc = .stopped .controllerFinished ↔ m.finishedLog.length = m.workload.nodes.toNat

namespace Counts
variable {m : DhtperfMaster}

theorem length_le (counts : Counts m) : m.controllers.length ≤ m.workload.nodes.toNat := by
  have size := counts.size
  split at size <;> omega

theorem distinct (counts : Counts m) : m.finishedLog.Nodup := by
  apply List.nodup_iff_count_le_one.mpr
  intro i
  by_cases bound : i < m.controllers.length
  · have each := counts.each i _ (List.getElem?_eq_getElem bound)
    split at each <;> omega
  · rw [List.count_eq_zero_of_not_mem fun member => bound (counts.members i member)]
    exact Nat.zero_le 1

theorem finished_le (counts : Counts m) : m.finishedLog.length ≤ m.controllers.length := by
  have inside : m.finishedLog ⊆ List.range m.controllers.length := fun i member =>
    List.mem_range.mpr (counts.members i member)
  simpa using (counts.distinct.subperm inside).length_le

/-- The service is stopped by the last controller only. -/
theorem all_counted (counts : Counts m) (stopped : m.pc = .stopped .controllerFinished) :
    ∀ i < m.controllers.length, i ∈ m.finishedLog := by
  have full := counts.stop.mp stopped
  have most := counts.length_le
  have fewer := counts.finished_le
  exact (log_full _ _ counts.distinct counts.members).mp (by omega)

theorem halt (pc : MasterPc) (other : pc ≠ .stopped .controllerFinished) (serving : m.pc = .serving)
    (counts : Counts m) : Counts {m with pc := pc} := by
  have running : m.finishedLog.length ≠ m.workload.nodes.toNat := fun full =>
    nomatch serving.symm.trans (counts.stop.mpr full)
  exact {counts with stop := ⟨fun same => absurd same other,fun full => absurd full running⟩}

theorem descriptors_update (i : Nat) (c d : ControllerConnection) (here : m.controllers[i]? = some c)
    (same : d.descriptor = c.descriptor) :
    (m.controllers.set i d).map (·.descriptor) = m.controllers.map (·.descriptor) := by
  rw [List.map_set,same]
  refine List.ext_getElem? fun k => ?_
  rw [List.getElem?_set]
  split
  next equal =>
    rw [← equal,List.getElem?_map,here]
    simp [(List.getElem?_eq_some_iff.mp here).1]
  next => rfl

theorem update (i : Nat) (c d : ControllerConnection) (here : m.controllers[i]? = some c)
    (same : d.descriptor = c.descriptor) (reads : d.reads.length = c.reads.length) (counts : Counts m) :
    Counts (m.update i d) := by
  refine ⟨?_,?_,?_,?_,counts.among,counts.finished,counts.failed,counts.stop⟩
  · have old := counts.descriptors
    rw [← descriptors_update i c d here same] at old
    exact old
  · simpa [DhtperfMaster.update] using counts.size
  · intro k e found
    rcases getElem?_update m i k d e found with ⟨rfl,rfl⟩ | found
    · rw [reads]
      exact counts.each k c here
    · exact counts.each k e found.2
  · simpa [DhtperfMaster.update] using counts.members

theorem finish (i : Nat) (c d : ControllerConnection) (here : m.controllers[i]? = some c)
    (same : d.descriptor = c.descriptor) (reads : d.reads.length + 1 = c.reads.length)
    (serving : m.pc = .serving) (counts : Counts m) : Counts ((m.update i d).controllerFinished i) := by
  have bound : i < m.controllers.length := (List.getElem?_eq_some_iff.mp here).1
  have awaited := counts.each i c here
  have absent : i ∉ m.finishedLog := by
    intro member
    have counted := List.count_pos_iff.mpr member
    split at awaited <;> omega
  -- One more controller than those counted so far exists, so the counter does not wrap.
  have room : m.finishedLog.length < m.controllers.length := by
    have inside : i :: m.finishedLog ⊆ List.range m.controllers.length := by
      intro k member
      rcases List.mem_cons.mp member with rfl | member
      · exact List.mem_range.mpr bound
      · exact List.mem_range.mpr (counts.members k member)
    have fewer := ((counts.distinct.cons absent).subperm inside).length_le
    rwa [List.length_cons,List.length_range] at fewer
  have whole := counts.length_le
  have next : (m.finishedControllers + 1).toNat = m.finishedLog.length + 1 := by
    have limit := m.workload.nodes.toNat_lt
    have finished := counts.finished
    rw [UInt32.toNat_add,UInt32.toNat_one]
    omega
  refine ⟨?_,?_,?_,?_,counts.among.trans (List.sublist_append_left _ _),?_,counts.failed,?_⟩
  · have old := counts.descriptors
    rw [← descriptors_update i c d here same] at old
    exact old
  · simpa [DhtperfMaster.update,controllerFinished] using counts.size
  · intro k e found
    change e.reads.length + (m.finishedLog ++ [i]).count k = if m.startMessagesSent then 1 else 0
    rw [List.count_append,List.count_singleton]
    rcases getElem?_update m i k d e found with ⟨rfl,rfl⟩ | ⟨other,found⟩
    · rw [← counts.each k c here,if_pos (beq_self_eq_true k)]
      omega
    · have old := counts.each k e found
      simpa [Ne.symm other] using old
  · intro k member
    simp only [controllerFinished,DhtperfMaster.update,List.length_set] at member ⊢
    rcases List.mem_append.mp member with old | fresh
    · exact counts.members k old
    · rw [List.mem_singleton.mp fresh]
      exact bound
  · simpa [controllerFinished,DhtperfMaster.update] using next
  · have same : m.finishedControllers + 1 = m.workload.nodes ↔ m.finishedLog.length + 1 = m.workload.nodes.toNat := by
      rw [← next,UInt32.toNat_inj]
    change (if m.finishedControllers + 1 = m.workload.nodes then _ else m.pc) = _ ↔
      (m.finishedLog ++ [i]).length = m.workload.nodes.toNat
    rw [List.length_append,List.length_singleton,← same]
    split
    next full => exact ⟨fun _ => full,fun _ => rfl⟩
    next more =>
      refine ⟨fun stopped => ?_,fun full => absurd full more⟩
      cases serving.symm.trans stopped

theorem fail (i : Nat) (c d : ControllerConnection) (here : m.controllers[i]? = some c)
    (same : d.descriptor = c.descriptor) (reads : d.reads.length + 1 = c.reads.length)
    (serving : m.pc = .serving) (counts : Counts m) : Counts ((m.update i d).handleDisconnection i) := by
  have counted := counts.finish i c d here same reads serving
  have fits : m.failedControllers.toNat + 1 < 2^32 := by
    have known := counts.failed
    have fewer := counts.among.length_le
    have limit := counted.finished
    have bound := ((m.update i d).controllerFinished i).finishedControllers.toNat_lt
    simp only [controllerFinished,DhtperfMaster.update,List.length_append,List.length_singleton] at limit bound
    omega
  refine {counted with among := counts.among.append_right [i], failed := ?_}
  have known := counts.failed
  simp only [handleDisconnection,controllerFinished,DhtperfMaster.update,List.length_append,List.length_singleton,
    UInt32.toNat_add,UInt32.toNat_one]
  omega

theorem make (workload : MasterWorkload) (dhtType : Bytes) (lowLatency : Bool) (acceptor : Descriptor)
    (nodes : 0 < workload.nodes.toNat) : Counts (.make workload dhtType lowLatency acceptor) where
  descriptors := List.nodup_singleton acceptor
  size := ⟨nodes,rfl⟩
  each := fun i c here => by simp [DhtperfMaster.make] at here
  members := fun i member => by simp [DhtperfMaster.make] at member
  among := List.Sublist.refl _
  finished := rfl
  failed := rfl
  stop := ⟨nofun,fun full => absurd full (Nat.ne_of_lt nodes)⟩

theorem unused_fresh (descriptor : Descriptor) (fresh : m.unused descriptor = true) :
    descriptor ∉ m.acceptor :: m.controllers.map (·.descriptor) := by
  simp only [unused,Bool.and_eq_true,decide_eq_true_eq,List.all_eq_true] at fresh
  intro member
  rcases List.mem_cons.mp member with equal | member
  · exact fresh.1 equal
  · obtain ⟨c,known,equal⟩ := List.mem_map.mp member
    exact fresh.2 c known equal

theorem quiet (counts : Counts m) (pending : 0 < m.accepts) :
    m.startMessagesSent = false ∧ m.finishedLog = [] := by
  have waiting : m.startMessagesSent = false := by
    have size := counts.size
    by_contra started
    rw [if_pos (by simpa using started)] at size
    omega
  refine ⟨waiting,List.eq_nil_iff_forall_not_mem.mpr fun i member => ?_⟩
  have awaited := counts.each i _ (List.getElem?_eq_getElem (counts.members i member))
  have counted := List.count_pos_iff.mpr member
  rw [waiting] at awaited
  simp only [Bool.false_eq_true,if_false] at awaited
  omega

theorem awaited (i : Nat) (c : ControllerConnection) (here : m.controllers[i]? = some c) (pending : c.reads ≠ [])
    (counts : Counts m) : m.startMessagesSent = true ∧ i ∉ m.finishedLog := by
  have each := counts.each i c here
  have some := List.length_pos_iff.mpr pending
  split at each
  next started => exact ⟨started,List.count_eq_zero.mp (by omega)⟩
  next => omega

theorem greeted (c : ControllerConnection) (pending : 0 < m.accepts) (fresh : m.unused c.descriptor = true)
    (idle : c.reads = []) (counts : Counts m) :
    (m.acceptor :: (m.controllers ++ [c]).map (·.descriptor)).Nodup ∧
      ∀ (i : Nat) (b : ControllerConnection), (m.controllers ++ [c])[i]? = some b → b.reads = [] := by
  obtain ⟨waiting,none⟩ := counts.quiet pending
  constructor
  · rw [List.map_append,← List.cons_append]
    refine List.nodup_append.mpr ⟨counts.descriptors,List.nodup_singleton _,fun a old b new equal => ?_⟩
    have same : b = c.descriptor := List.mem_singleton.mp new
    exact unused_fresh c.descriptor fresh (by rwa [← same,← equal])
  · intro i b found
    rw [List.getElem?_append] at found
    split at found
    · have awaited := counts.each i b found
      rw [waiting,none] at awaited
      simpa using awaited
    · rw [List.getElem?_singleton] at found
      split at found
      · cases found
        exact idle
      · cases found

end Counts

variable (platform : Platform)

theorem step_counts (before after : DhtperfMaster) (counts : Counts before) (step : Step platform before after) :
    Counts after := by
  obtain ⟨action,acted⟩ := step
  obtain ⟨serving,moved⟩ := act_moves platform before after action acted
  cases moved with
  | aborted _ abort fails => exact counts.halt _ nofun serving
  | timedOut _ => exact counts.halt _ nofun serving
  | accepted descriptor address luck c pending fresh greeted more =>
    obtain ⟨rfl,_,unread,_⟩ := greet_idle platform before _ address luck c greeted
    obtain ⟨waiting,none⟩ := counts.quiet pending
    obtain ⟨different,idle⟩ := counts.greeted c pending fresh unread
    refine ⟨different,?_,fun i b found => ?_,?_,counts.among,counts.finished,counts.failed,counts.stop⟩
    · have size := counts.size
      simp only [waiting,Bool.false_eq_true,if_false] at size ⊢
      exact ⟨by simpa using more,size.2⟩
    · simp [idle i b found,none,waiting]
    · simp [none]
  | started descriptor address luck c controllers pending fresh greeted last sent =>
    obtain ⟨rfl,_,unread,_⟩ := greet_idle platform before _ address luck c greeted
    obtain ⟨waiting,none⟩ := counts.quiet pending
    obtain ⟨different,idle⟩ := counts.greeted c pending fresh unread
    obtain ⟨length,each⟩ := sendStartMessages_each platform luck _ 0 _ controllers sent
    rw [List.length_append,List.length_singleton] at length
    have kept : controllers.map (·.descriptor) = (before.controllers ++ [c]).map (·.descriptor) := by
      apply List.ext_getElem (by simp [length])
      intro i left right
      have bound : i < controllers.length := by simpa using left
      obtain ⟨b,bits,found,_,same⟩ := each i _ (List.getElem?_eq_getElem bound)
      rw [List.getElem_map,List.getElem_map,same,← Option.some.inj (found.symm.trans (List.getElem?_eq_getElem _))]
      rfl
    refine ⟨?_,?_,fun i e found => ?_,?_,counts.among,counts.finished,counts.failed,counts.stop⟩
    · rw [← kept] at different
      exact different
    · have size := counts.size
      simp only [waiting,Bool.false_eq_true,if_false] at size
      refine ⟨(?_ : controllers.length = before.workload.nodes.toNat),(?_ : before.accepts - 1 = 0)⟩
      · omega
      · omega
    · obtain ⟨b,bits,old,_,rfl⟩ := each i e found
      simp [ControllerConnection.asyncWaitForMessage,ControllerConnection.sentWith,idle i b old,none]
    · simp [none]
  | reading i c d byte reachable here pending read =>
    obtain ⟨⟨header,body,reads,rfl⟩,same⟩ := ControllerConnection.receive_shape _ _ c d byte none pending read
    exact counts.update i c _ here rfl same
  | reported i c d byte reachable type value results here pending read pushed =>
    obtain ⟨⟨header,body,reads,rfl⟩,same⟩ := ControllerConnection.receive_shape _ _ c d byte _ pending read
    have again := counts.update i c
      ({c with headerBuffer := header, bodyBuffer := body, reads := reads, taken := c.taken ++ [byte]} :
        ControllerConnection).asyncWaitForMessage here rfl (List.length_append.trans same)
    exact {again with}
  | finished i c d byte reachable here pending read =>
    obtain ⟨⟨header,body,reads,rfl⟩,same⟩ := ControllerConnection.receive_shape _ _ c d byte _ pending read
    exact counts.finish i c _ here rfl same serving
  | disconnected i c here pending =>
    exact counts.fail i c _ here rfl (by simpa using Nat.sub_add_cancel (List.length_pos_iff.mpr pending)) serving
  | transmitted i index count beyond c d here sent =>
    obtain ⟨writes,received,rfl⟩ := ControllerConnection.transmit_shape _ c d index count beyond sent
    exact counts.update i c _ here rfl rfl

/-- File descriptors bound the number of controllers, hence the number of nodes. -/
theorem nodes_fit (m : DhtperfMaster) (counts : Counts m) (started : m.startMessagesSent = true) :
    m.workload.nodes.toNat < 2^31 := by
  have size := counts.size
  rw [if_pos started] at size
  have bound := counts.descriptors.length_le_card
  rw [List.length_cons,List.length_map,Fintype.card_fin] at bound
  omega

theorem toInt32_small (value : UInt32) (fits : value.toNat < 2^31) : value.toInt32.toInt = value.toNat :=
  BitVec.toInt_eq_toNat_of_lt (show 2 * value.toNat < 2^32 by omega)

theorem nodesStatus_counts (m : DhtperfMaster) (counts : Counts m) (started : m.startMessagesSent = true) :
    m.nodesStatus = ⟨((m.finishedControllers.toNat - m.failedControllers.toNat : Nat) : Int),
      (m.failedControllers.toNat : Int),((m.workload.nodes.toNat - m.finishedControllers.toNat : Nat) : Int)⟩ := by
  have limit := nodes_fit m counts started
  have failed : m.failedControllers.toNat ≤ m.finishedControllers.toNat := by
    rw [counts.failed,counts.finished]
    exact counts.among.length_le
  have finished : m.finishedControllers.toNat ≤ m.workload.nodes.toNat := by
    rw [counts.finished]
    exact counts.finished_le.trans counts.length_le
  have first := UInt32.toNat_sub_of_le m.finishedControllers m.failedControllers failed
  have last := UInt32.toNat_sub_of_le m.workload.nodes m.finishedControllers finished
  rw [nodesStatus,toInt32_small _ (by omega),toInt32_small _ (by omega),toInt32_small _ (by omega),first,last]

/-- In every state after the Start messages, of any run, the counts are what they say. -/
theorem counts_after_start (file dhtType : Bytes) (nodes : UInt32) (workload : MasterWorkload)
    (loaded : MasterWorkload.loadConfig file nodes = .ok (some workload)) (lowLatency : Bool)
    (acceptor : Descriptor) (m : DhtperfMaster)
    (run : ReflTransGen (Step platform) (.make workload dhtType lowLatency acceptor) m)
    (started : m.startMessagesSent = true) :
    (∀ c ∈ m.controllers, c.reads.length ≤ 1) ∧
      m.controllers.countP (fun c => c.reads ≠ []) + m.finishedControllers.toNat = workload.nodes.toNat ∧
      m.finishedLog.Nodup ∧ m.failedLog.Nodup ∧
      m.finishedControllers.toNat = m.finishedLog.length ∧ m.failedControllers.toNat = m.failedLog.length ∧
      m.failedControllers ≤ m.finishedControllers ∧ m.finishedControllers ≤ workload.nodes ∧
      (m.pc = .stopped .controllerFinished ↔ ∀ i < workload.nodes.toNat, i ∈ m.finishedLog) ∧
      0 ≤ m.nodesStatus.finished ∧ 0 ≤ m.nodesStatus.failed ∧ 0 ≤ m.nodesStatus.unfinished ∧
      m.nodesStatus.finished + m.nodesStatus.failed + m.nodesStatus.unfinished = workload.nodes.toNat ∧
      ∀ status : NodesStatus, status.set m.nodesStatusText = m.nodesStatus := by
  have kept : m.workload = workload := (run_setup platform _ m run).1
  have positive := MasterWorkload.valid_nodes workload (MasterWorkload.loadConfig_valid file nodes workload loaded)
  have counts : Counts m := run_invariant run (Counts.make workload dhtType lowLatency acceptor positive)
    (step_counts platform)
  have size := counts.size
  rw [if_pos started,kept] at size
  have each := fun (i : Nat) (c : ControllerConnection) (here : m.controllers[i]? = some c) =>
    (counts.each i c here).trans (if_pos started)
  have failed : m.failedControllers.toNat ≤ m.finishedControllers.toNat := by
    rw [counts.failed,counts.finished]
    exact counts.among.length_le
  have finished : m.finishedControllers.toNat ≤ workload.nodes.toNat := by
    rw [counts.finished]
    exact counts.finished_le.trans (Nat.le_of_eq size.1)
  have status := nodesStatus_counts m counts started
  have limit := nodes_fit m counts started
  rw [kept] at status limit
  refine ⟨fun c member => ?_,?_,counts.distinct,counts.distinct.sublist counts.among,counts.finished,counts.failed,
    UInt32.le_iff_toNat_le.mpr failed,UInt32.le_iff_toNat_le.mpr finished,?_,?_,?_,?_,?_,fun old => ?_⟩
  · obtain ⟨i,here⟩ := List.mem_iff_getElem?.mp member
    have awaited := each i c here
    omega
  · rw [counts.finished,← size.1]
    apply countP_add_log _ _ _ counts.distinct counts.members
    intro i c here
    have awaited := each i c here
    rw [decide_eq_true_eq,← List.count_eq_zero,ne_eq,← List.length_eq_zero_iff]
    omega
  · rw [counts.stop,kept]
    exact log_full _ _ counts.distinct fun i member => size.1 ▸ counts.members i member
  · rw [status]
    exact Int.natCast_nonneg _
  · rw [status]
    exact Int.natCast_nonneg _
  · rw [status]
    exact Int.natCast_nonneg _
  · rw [status]
    simp only
    omega
  · rw [nodesStatusText,status]
    simp only [NodeSuccessRate.written_natCast]
    exact old.set_decimal _ _ _ (by omega)

def loneWorkload : MasterWorkload where
  nodes := 1
  duration := 10
  profiles := [⟨ascii "p",ascii "exact 0",ascii "none",ascii "none",ascii "none"⟩]
  nodeProfiles := fun i => if i < 1 then some (ascii "p") else none

def pairFile : Bytes :=
  ascii "nodes 2\nduration 10\nprofile p\njoin exact 0\nleave none\nput none\nget none\ndefault-profile p\n"

def pairWorkload : MasterWorkload :=
  {loneWorkload with nodes := 2, nodeProfiles := fun i => if i < 2 then some (ascii "p") else none}

/-- Every address is known and every message leaves at once. -/
def smooth : AcceptLuck := ⟨fun _ => true,1000,1000,fun _ => 1000⟩

/-- The second node finishes, and the connection of the first one breaks. -/
theorem finish_and_failure : ∃ m : DhtperfMaster, m.startMessagesSent = true ∧ m.finishedLog = [1,0] ∧
    m.failedLog = [0] ∧ m.controllers.countP (fun c => c.reads ≠ []) + m.finishedControllers.toNat = 2 ∧
    (m.pc = .stopped .controllerFinished ↔ ∀ i < 2, i ∈ m.finishedLog) ∧ m.nodesStatus = ⟨1,1,0⟩ ∧
    m.nodesStatus.finished + m.nodesStatus.failed + m.nodesStatus.unfinished = 2 ∧
    NodesStatus.empty.set m.nodesStatusText = m.nodesStatus := by
  obtain ⟨m,run,shape⟩ := perform_run (act ⟨.little,NodeLatency.oneDay,.shared⟩) (fun _ _ => True)
    ([.accept 4 (ascii "host") smooth,.accept 5 (ascii "other") smooth] ++
      ((Message.finish.bits .little).map fun byte => .receive 1 byte true) ++ [.readError 0 true])
    (make pairWorkload (ascii "dummy") true 3)
    (fun m => m.startMessagesSent ∧ m.finishedLog = [1,0] ∧ m.failedLog = [0] ∧ m.nodesStatus = ⟨1,1,0⟩)
    (by decide +kernel)
  obtain ⟨started,finished,failed,status⟩ := of_decide_eq_true shape
  obtain ⟨_,awaited,_,_,_,_,_,_,stop,_,_,_,sum,text⟩ := counts_after_start _ pairFile (ascii "dummy") 0 pairWorkload rfl
    true 3 m (runIf_run _ _ _ m run) started
  exact ⟨m,started,finished,failed,awaited,stop,status,sum,text _⟩

end DhtperfMaster
end Dhtperf
