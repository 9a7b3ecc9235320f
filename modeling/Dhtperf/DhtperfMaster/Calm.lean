import Dhtperf.DhtperfMaster.Failures

/-! Runs of the master in which nothing fails but controllers. Such a run can only come to rest
when all of them are counted as finished, or when one that is not has nothing more to say. -/
namespace Dhtperf
open Library Relation ControllerConnection DhtperfController

/-- The controller whose connection turns out to be lost. -/
def Action.lost : Action → Option Nat
  | .readError i _ => some i
  | _ => none

namespace DhtperfMaster
variable (platform : Platform)

/-- Only reads can fail, and the time does not run out. -/
def Calm (order : ByteOrder) (m : DhtperfMaster) : Action → Prop
  | .timeout => False
  | action => Gentle order m action

instance (order : ByteOrder) (m : DhtperfMaster) (action : Action) : Decidable (Calm order m action) := by
  unfold Calm
  split <;> infer_instance

theorem calm_gentle (order : ByteOrder) (m : DhtperfMaster) (action : Action) (calm : Calm order m action) :
    Gentle order m action := by
  cases action with
  | timeout => exact calm.elim
  | _ => exact calm

/-! ### Writes -/

/-- A write that is pending has something to write. -/
def Begun (c : ControllerConnection) : Prop := ∀ write ∈ c.writes, write.transferred < write.bits.length

theorem begun_sentWith (c : ControllerConnection) (message : Message) (bits : Bytes) (atOnce : Nat) (begun : Begun c) :
    Begun (c.sentWith message bits atOnce) := by
  intro write member
  rcases List.mem_append.mp member with old | new
  · exact begun write old
  · split at new
    next more =>
      rw [List.mem_singleton.mp new]
      exact more
    next => cases new

theorem begun_transmit (model : WriteModel) (c d : ControllerConnection) (index count : Nat) (beyond : Bytes)
    (sent : c.transmit model index count beyond = some d) (begun : Begun c) : Begun d := by
  unfold transmit at sent
  split at sent
  next => cases sent
  next write here =>
    split at sent
    next =>
      cases sent
      intro other member
      dsimp only at member
      split at member
      next more =>
        rcases List.mem_or_eq_of_mem_set member with old | rfl
        · exact begun other old
        · exact more
      next => exact begun other (List.mem_of_mem_eraseIdx member)
    next => cases sent

theorem step_begun (before after : DhtperfMaster) (begun : Everywhere (fun _ _ c => Begun c) before)
    (step : Step platform before after) : Everywhere (fun _ _ c => Begun c) after := by
  obtain ⟨action,acted⟩ := step
  refine everywhere_moves platform _ before after action (act_moves platform before after action acted).2 begun
    (fun _ _ _ _ _ _ _ known => known)
    (fun _ c d index count beyond sent => begun_transmit _ c d index count beyond sent) ?_
    fun _ _ _ _ _ c bits _ _ _ _ _ _ known => begun_sentWith c _ bits _ known
  intro descriptor address luck c _ _ welcome
  obtain ⟨first,p,second,_,_,_,rfl⟩ := greet_shape platform before descriptor address luck c welcome
  exact begun_sentWith _ _ _ _ (begun_sentWith _ _ _ _ fun write none => by cases none)

theorem transmit_enabled (c : ControllerConnection) (begun : Begun c) (pending : c.writes ≠ []) :
    ∃ d, c.transmit .intact 0 1 [] = some d := by
  obtain ⟨write,rest,writes⟩ := List.exists_cons_of_ne_nil pending
  have more := begun write (by simp [writes])
  have chunk : (c.chunk .intact write 1 []).length = 1 := by
    simp only [ControllerConnection.chunk,List.length_take,List.length_drop]
    omega
  unfold transmit
  rw [writes,List.getElem?_cons_zero]
  exact ⟨_,if_pos ⟨Nat.one_pos,by omega,chunk,fun _ => rfl⟩⟩

/-! ### Reads -/

variable (results : Nat → Results)

/-- A controller that has not finished has not been heard to its end. -/
def Unheard (m : DhtperfMaster) (i : Nat) : Prop := ∀ c, m.controllers[i]? = some c → i ∉ m.finishedLog →
  c.taken.length < (stream platform.order results i).length

theorem script_more (order : ByteOrder) (told : Results) (whole : script order told = messages told)
    (heard : List Message) (message : Message) (part : heard ++ [message] <+: script order told)
    (other : message ≠ .finish) : ((heard ++ [message]).flatMap (Message.bits order)).length <
      ((script order told).flatMap (Message.bits order)).length := by
  obtain ⟨rest,shape⟩ := part
  cases rest with
  | nil =>
    rw [List.append_nil,whole,messages] at shape
    exact absurd (List.singleton_injective (List.append_inj' shape rfl).2) other
  | cons next rest =>
    have some := List.length_pos_iff.mpr (Message.bits_ne_nil order next)
    have total := congrArg (fun all => (all.flatMap (Message.bits order)).length) shape
    rw [List.flatMap_append,List.flatMap_cons,List.length_append,List.length_append] at total
    omega

theorem stream_pos (i : Nat) (whole : script platform.order (results i) = messages (results i)) :
    0 < (stream platform.order results i).length := by
  unfold stream
  rw [whole,messages,List.flatMap_append,List.flatMap_singleton,List.length_append]
  have some := List.length_pos_iff.mpr (Message.bits_ne_nil platform.order .finish)
  omega

section
variable (start : ResultProcessor) (before : DhtperfMaster) (i : Nat) (c d : ControllerConnection) (byte : UInt8)
  (telling : Telling platform results start before)
  (here : before.controllers[i]? = some c) (pending : c.reads ≠ [])
  (spoken : (stream platform.order results i)[c.taken.length]? = some byte)
include telling here pending spoken

theorem reading_unheard (read : c.receive platform.order true byte = .ok (d,none)) :
    d.taken.length < (stream platform.order results i).length := by
  obtain ⟨heard,known,⟨after,same,hearing⟩ | ⟨message,after,_,same,_⟩⟩ :=
    told_receive platform results before start i c byte here pending spoken telling
  · cases read.symm.trans same
    cases hearing with
    | between waiting taken =>
      obtain ⟨⟨header,body,reads,rfl⟩,_⟩ := receive_shape platform.order true c d byte none pending read
      have least := known.arrived.1.length_le
      have total := congrArg List.length taken
      dsimp only at total
      rw [List.length_append,List.length_singleton] at total
      omega
    | midway message rest partly taken next =>
      have some := List.length_pos_iff.mpr (midway_rest platform.order d message rest partly)
      have total := congrArg List.length taken
      obtain ⟨others,shape⟩ := next
      unfold stream
      rw [← shape,List.flatMap_append,List.length_append,← total,List.length_append]
      omega
  · cases read.symm.trans same

theorem reported_unheard (whole : script platform.order (results i) = messages (results i)) (type value : Bytes)
    (read : c.receive platform.order true byte = .ok (d,some (.report type value))) :
    d.taken.length < (stream platform.order results i).length := by
  obtain ⟨heard,_,next,_,taken⟩ :=
    whole_heard platform results before start i c d byte _ here pending spoken read telling
  rw [taken]
  exact script_more platform.order (results i) whole heard _ next (by simp)

end

theorem step_unheard (start : ResultProcessor) (before after : DhtperfMaster) (i : Nat)
    (whole : script platform.order (results i) = messages (results i)) (telling : Telling platform results start before)
    (unheard : Unheard platform results before i)
    (step : StepIf platform (Spoken platform.order results) before after) : Unheard platform results after i := by
  obtain ⟨action,spoken,acted⟩ := step
  obtain ⟨serving,moved⟩ := act_moves platform before after action acted
  cases moved with
  | aborted _ abort fails => exact unheard
  | timedOut _ => exact unheard
  | accepted descriptor address luck new pending fresh welcome more =>
    intro c here absent
    rw [List.getElem?_append] at here
    split at here
    next => exact unheard c here absent
    next =>
      rw [List.getElem?_singleton] at here
      split at here
      · cases here
        rw [(greet_idle platform before descriptor address luck new welcome).2.2.2]
        exact stream_pos platform results i whole
      · cases here
  | started descriptor address luck new controllers pending fresh welcome last sent =>
    intro e found absent
    obtain ⟨c,bits,old,_,rfl⟩ := (sendStartMessages_each platform luck _ 0 _ controllers sent).2 i e found
    rw [List.getElem?_append] at old
    split at old
    next => exact unheard c old absent
    next =>
      rw [List.getElem?_singleton] at old
      split at old
      · cases old
        change new.taken.length < _
        rw [(greet_idle platform before descriptor address luck new welcome).2.2.2]
        exact stream_pos platform results i whole
      · cases old
  | reading k c d byte reachable here pending read =>
    intro e found absent
    rcases getElem?_update before k i d e found with ⟨rfl,rfl⟩ | ⟨_,found⟩
    · exact reading_unheard platform results start before i c e byte telling here pending (spoken c here)
        (received_reachable platform c byte reachable _ read)
    · exact unheard e found absent
  | reported k c d byte reachable type value pushed here pending read ok =>
    intro e found absent
    rcases getElem?_update before k i d.asyncWaitForMessage e found with ⟨rfl,rfl⟩ | ⟨_,found⟩
    · exact reported_unheard platform results start before i c d byte telling here pending (spoken c here) whole type
        value (received_reachable platform c byte reachable _ read)
    · exact unheard e found absent
  | finished k c d byte reachable here pending read =>
    intro e found absent
    rcases getElem?_update before k i d e found with ⟨rfl,rfl⟩ | ⟨_,found⟩
    · exact absurd (List.mem_append_right _ List.mem_cons_self) absent
    · exact unheard e found fun member => absent (List.mem_append_left _ member)
  | disconnected k c here pending =>
    intro e found absent
    rcases getElem?_update before k i _ e found with ⟨rfl,rfl⟩ | ⟨_,found⟩
    · exact absurd (List.mem_append_right _ List.mem_cons_self) absent
    · exact unheard e found fun member => absent (List.mem_append_left _ member)
  | transmitted k index count beyond c d here sent =>
    obtain ⟨writes,received,rfl⟩ := transmit_shape _ c d index count beyond sent
    intro e found absent
    rcases getElem?_update before k i _ e found with ⟨rfl,rfl⟩ | ⟨_,found⟩
    · exact unheard c here absent
    · exact unheard e found absent

/-! ### What can happen next -/

section
variable (m : DhtperfMaster) (counts : Counts m) (serving : m.pc = .serving)
include counts serving

theorem accept_enabled (waiting : m.startMessagesSent = false) (descriptors : m.workload.nodes.toNat < 2^31)
    (type : Sendable platform.order (.dhtType m.dhtType))
    (profiles : ∀ p ∈ m.workload.profiles, Sendable platform.order (profileMessage p)) :
    ∃ descriptor address luck after, Calm platform.order m (.accept descriptor address luck) ∧
      act platform m (.accept descriptor address luck) = some after := by
  have size := counts.size
  rw [waiting,if_neg Bool.false_ne_true] at size
  obtain ⟨descriptor,free⟩ : ∃ descriptor, descriptor ∉ m.acceptor :: m.controllers.map (·.descriptor) := by
    by_contra none
    have all : Fintype.card Descriptor ≤ (m.acceptor :: m.controllers.map (·.descriptor)).length :=
      (Finset.card_le_card fun d _ => List.mem_toFinset.mpr (not_not.mp (not_exists.mp none d))).trans
        (List.toFinset_card_le _)
    rw [Fintype.card_fin,List.length_cons,List.length_map] at all
    omega
  have unused : m.unused descriptor = true := by
    simp only [List.mem_cons,List.mem_map,not_or,not_exists,not_and] at free
    simp only [DhtperfMaster.unused,Bool.and_eq_true,decide_eq_true_eq,List.all_eq_true]
    exact ⟨free.1,fun c member same => free.2 c member same⟩
  have acted : ∃ after, act platform m (.accept descriptor [] ⟨fun _ => true,0,0,fun _ => 0⟩) = some after := by
    rw [act,if_neg (not_not.mpr serving)]
    exact ⟨_,if_pos ⟨size.2 ▸ Nat.one_pos,unused⟩⟩
  obtain ⟨after,acted⟩ := acted
  refine ⟨descriptor,[],_,after,⟨fun _ _ => rfl,by decide,type,fun p profile => ?_⟩,acted⟩
  obtain ⟨name,_,found⟩ := Option.bind_eq_some_iff.mp profile
  exact profiles p (List.mem_of_find?_eq_some found)

theorem unfinished (sent : m.startMessagesSent = true) : ∃ i < m.controllers.length, i ∉ m.finishedLog := by
  by_contra none
  have all : ∀ i < m.controllers.length, i ∈ m.finishedLog := by
    intro i bound
    by_contra absent
    exact none ⟨i,bound,absent⟩
  have size := counts.size
  rw [if_pos sent] at size
  have full := (log_full _ _ counts.distinct counts.members).mpr all
  cases serving.symm.trans (counts.stop.mpr (full.trans size.1))

omit counts in
theorem receive_enabled (i : Nat) (c : ControllerConnection) (here : m.controllers[i]? = some c)
    (pending : c.reads ≠ []) (byte : UInt8) : ∃ after, act platform m (.receive i byte true) = some after := by
  rw [act,if_neg (not_not.mpr serving)]
  simp only [here,if_pos pending]
  exact ⟨_,rfl⟩

omit counts in
theorem readError_enabled (i : Nat) (c : ControllerConnection) (here : m.controllers[i]? = some c)
    (pending : c.reads ≠ []) : ∃ after, act platform m (.readError i true) = some after := by
  rw [act,if_neg (not_not.mpr serving)]
  simp only [here,if_pos pending]
  exact ⟨_,rfl⟩

end

theorem act_failed (before after : DhtperfMaster) (action : Action) (acted : act platform before action = some after)
    (i : Nat) (member : i ∈ after.failedLog) : i ∈ before.failedLog ∨ action = .readError i true := by
  obtain ⟨_,moved⟩ := act_moves platform before after action acted
  cases moved with
  | disconnected k c here pending =>
    rcases List.mem_append.mp member with old | new
    · exact .inl old
    · exact .inr (by rw [List.mem_singleton.mp new])
  | _ => exact .inl member

/-! ### Lookups -/

def reached (luck : AcceptLuck) : AcceptLuck := {luck with reachable := fun _ => true}

theorem sendStartMessages_lookups (luck : AcceptLuck) (message : Nat → Message) (i : Nat)
    (cs : List ControllerConnection) :
    sendStartMessages platform luck message i cs = sendStartMessages platform (reached luck) message i cs ∨
      (∃ k < i + cs.length, luck.reachable k = false) ∧
        sendStartMessages platform luck message i cs = .error .lookup := by
  induction cs generalizing i with
  | nil => exact .inl rfl
  | cons c cs ih =>
    by_cases entry : i ≠ 0 ∧ luck.reachable (MasterWorkload.getNodeEntryPointHost i) = false
    · refine .inr ⟨⟨0,by simp,entry.2⟩,?_⟩
      unfold sendStartMessages
      rw [if_pos entry]
      rfl
    by_cases lost : luck.reachable i = false
    · refine .inr ⟨⟨i,by simp,lost⟩,?_⟩
      unfold sendStartMessages
      rw [if_neg entry,if_pos lost]
      rfl
    have known : ¬(i ≠ 0 ∧ (reached luck).reachable (MasterWorkload.getNodeEntryPointHost i) = false) := by simp [reached]
    have found : ¬(reached luck).reachable i = false := by simp [reached]
    have sends : (reached luck).startAtOnce i = luck.startAtOnce i := rfl
    unfold sendStartMessages
    rw [if_neg entry,if_neg lost,if_neg known,if_neg found,sends]
    cases c.sendMessage platform.order platform.writes (message i) (luck.startAtOnce i) with
    | error abort => exact .inl rfl
    | ok d =>
      rcases ih (i + 1) with same | ⟨⟨k,bound,unknown⟩,failed⟩
      · exact .inl (by rw [same])
      · refine .inr ⟨⟨k,by simp only [List.length_cons]; omega,unknown⟩,?_⟩
        rw [failed]
        rfl

/-- An accept whose lookups fail ends the process, and no other accept depends on them. -/
theorem handleAccept_lookups (m : DhtperfMaster) (descriptor : Descriptor) (address : Bytes) (luck : AcceptLuck) :
    m.handleAccept platform descriptor address luck = m.handleAccept platform descriptor address (reached luck) ∨
      (∃ i ≤ m.controllers.length, luck.reachable i = false) ∧
        m.handleAccept platform descriptor address luck = .error .lookup := by
  by_cases lost : luck.reachable m.controllers.length = false
  · refine .inr ⟨⟨_,Nat.le_refl _,lost⟩,?_⟩
    unfold handleAccept greet
    simp only [lost,if_true]
    rfl
  have greeted : m.greet platform descriptor address luck = m.greet platform descriptor address (reached luck) := by
    unfold greet
    simp only [lost,reached,Bool.true_eq_false,if_false]
  unfold handleAccept
  rw [greeted]
  cases m.greet platform descriptor address (reached luck) with
  | error abort => exact .inl rfl
  | ok c =>
    simp only [bind,Except.bind]
    split
    next => exact .inl rfl
    next =>
      rcases sendStartMessages_lookups platform luck
        (startMessage m.workload ((m.controllers ++ [c]).map (·.address))) 0 (m.controllers ++ [c])
        with same | ⟨⟨k,bound,unknown⟩,failed⟩
      · exact .inl (by rw [same])
      · rw [List.length_append,List.length_singleton] at bound
        exact .inr ⟨⟨k,by omega,unknown⟩,by rw [failed]⟩

/-! ### Runs -/

section
variable (nodes : Nat → DhtNode) (time duration : Int → Prop)

/-- Everything that is known in a run in which nothing fails. -/
structure Undisturbed (workload : MasterWorkload) (start : ResultProcessor) (m : DhtperfMaster) : Prop where
  healthy : Healthy platform nodes workload start m
  going : m.pc = .serving ∨ m.pc = .stopped .controllerFinished
  begun : Everywhere (fun _ _ c => Begun c) m
  unheard : ∀ i, script platform.order (resultsOf platform nodes i) = messages (resultsOf platform nodes i) →
    Unheard platform (resultsOf platform nodes) m i

variable (inverse : platform.text.Inverse time duration) (measured : ∀ i, (nodes i).Measured time duration)
include inverse measured

theorem step_undisturbed (workload : MasterWorkload) (valid : workload.valid = true) (start : ResultProcessor)
    (before after : DhtperfMaster) (undisturbed : Undisturbed platform nodes workload start before)
    (step : StepIf platform (fun m action => Spoken platform.order (resultsOf platform nodes) m action ∧
      Calm platform.order m action) before after) : Undisturbed platform nodes workload start after := by
  obtain ⟨action,⟨spoken,calm⟩,acted⟩ := step
  have gentle := calm_gentle platform.order before action calm
  have healthy := step_healthy platform nodes time duration inverse measured workload valid start before after
    undisturbed.healthy ⟨action,⟨spoken,gentle⟩,acted⟩
  obtain ⟨serving,moved⟩ := act_moves platform before after action acted
  have kept (m : DhtperfMaster) (i : Nat) (here : m.pc = .serving) :
      (m.controllerFinished i).pc = .serving ∨ (m.controllerFinished i).pc = .stopped .controllerFinished := by
    unfold controllerFinished
    dsimp only
    split
    · exact .inr rfl
    · exact .inl here
  refine ⟨healthy,?_,step_begun platform before after undisturbed.begun ⟨action,acted⟩,fun i whole =>
    step_unheard platform _ start before after i whole undisturbed.healthy.telling (undisturbed.unheard i whole)
      ⟨action,spoken,acted⟩⟩
  have alive := healthy.alive
  cases moved with
  | aborted _ abort fails => exact absurd rfl (alive abort)
  | timedOut sent => exact calm.elim
  | disconnected i c here pending => exact kept _ i serving
  | finished i c d byte reachable here pending read => exact kept (before.update i d) i serving
  | _ => exact .inl serving

theorem run_undisturbed (file dhtType : Bytes) (given : UInt32) (workload : MasterWorkload)
    (loaded : MasterWorkload.loadConfig file given = .ok (some workload)) (lowLatency : Bool)
    (acceptor : Descriptor) (m : DhtperfMaster)
    (run : ReflTransGen (StepIf platform fun m action =>
      Spoken platform.order (resultsOf platform nodes) m action ∧ Calm platform.order m action)
      (.make workload dhtType lowLatency acceptor) m) :
    Undisturbed platform nodes workload (.make dhtType lowLatency) m := by
  have valid := MasterWorkload.loadConfig_valid file given workload loaded
  refine run_invariant run ⟨⟨rfl,?_,fun i c found => ?_,fun abort aborted => by cases aborted⟩,.inl rfl,
    fun i c found => ?_,fun i whole c found => ?_⟩ fun before after known step =>
      step_undisturbed platform nodes time duration inverse measured workload valid _ before after known step
  · exact make_telling platform _ workload dhtType lowLatency acceptor (MasterWorkload.valid_nodes workload valid)
  all_goals simp [make] at found

end

end DhtperfMaster
end Dhtperf
