import Dhtperf.DhtperfMaster
import Dhtperf.Library.Runs

/-! What one action can do to the master, said once. -/
namespace Dhtperf
open Library

namespace DhtperfMaster
variable (platform : Platform)

def Fails (m : DhtperfMaster) (abort : Abort) : Action → Prop
  | .accept descriptor address luck => 0 < m.accepts ∧
      m.handleAccept platform descriptor address luck = .error abort
  | .acceptError => abort = .accept
  | .receive i byte reachable => ∃ c, m.controllers[i]? = some c ∧ c.reads ≠ [] ∧
      m.handleRead platform i c byte reachable = .error abort
  | .readError _ reachable => reachable = false ∧ abort = .lookup
  | .writeError _ => abort = .write
  | .transmit _ _ _ _ => False
  | .timeout => False

inductive Moves (m : DhtperfMaster) : Action → DhtperfMaster → Prop
  | aborted (action : Action) (abort : Abort) (fails : Fails platform m abort action) :
      Moves m action {m with pc := .aborted abort}
  | accepted (descriptor : Descriptor) (address : Bytes) (luck : AcceptLuck) (c : ControllerConnection)
      (pending : 0 < m.accepts) (fresh : m.unused descriptor = true)
      (greeted : m.greet platform descriptor address luck = .ok c)
      (more : m.controllers.length + 1 < m.workload.nodes.toNat) :
      Moves m (.accept descriptor address luck) {m with controllers := m.controllers ++ [c]}
  | started (descriptor : Descriptor) (address : Bytes) (luck : AcceptLuck) (c : ControllerConnection)
      (controllers : List ControllerConnection) (pending : 0 < m.accepts)
      (fresh : m.unused descriptor = true)
      (greeted : m.greet platform descriptor address luck = .ok c)
      (last : m.workload.nodes.toNat ≤ m.controllers.length + 1)
      (sent : sendStartMessages platform luck
        (startMessage m.workload ((m.controllers ++ [c]).map (·.address))) 0 (m.controllers ++ [c]) =
          .ok controllers) :
      Moves m (.accept descriptor address luck)
        {m with controllers := controllers, accepts := m.accepts - 1, startMessagesSent := true}
  | reading (i : Nat) (c after : ControllerConnection) (byte : UInt8) (reachable : Bool)
      (here : m.controllers[i]? = some c) (pending : c.reads ≠ [])
      (read : c.receive platform.order reachable byte = .ok (after,none)) :
      Moves m (.receive i byte reachable) (m.update i after)
  | reported (i : Nat) (c after : ControllerConnection) (byte : UInt8) (reachable : Bool)
      (type value : Bytes) (results : ResultProcessor)
      (here : m.controllers[i]? = some c) (pending : c.reads ≠ [])
      (read : c.receive platform.order reachable byte = .ok (after,some (.report type value)))
      (pushed : m.resultProcessor.pushResult platform.text type value = .ok results) :
      Moves m (.receive i byte reachable) (({m with
        resultProcessor := results
        reportLog := m.reportLog ++ [(i,type,value)]} : DhtperfMaster).update i after.asyncWaitForMessage)
  | finished (i : Nat) (c after : ControllerConnection) (byte : UInt8) (reachable : Bool)
      (here : m.controllers[i]? = some c) (pending : c.reads ≠ [])
      (read : c.receive platform.order reachable byte = .ok (after,some .finish)) :
      Moves m (.receive i byte reachable) ((m.update i after).handleFinishMessage i)
  | disconnected (i : Nat) (c : ControllerConnection) (here : m.controllers[i]? = some c)
      (pending : c.reads ≠ []) :
      Moves m (.readError i true) ((m.update i {c with reads := c.reads.tail}).handleDisconnection i)
  | transmitted (i index count : Nat) (beyond : Bytes) (c after : ControllerConnection)
      (here : m.controllers[i]? = some c)
      (sent : c.transmit platform.writes index count beyond = some after) :
      Moves m (.transmit i index count beyond) (m.update i after)
  | timedOut (sent : m.startMessagesSent = true) : Moves m .timeout {m with pc := .stopped .timeout}

theorem accept_moves (m : DhtperfMaster) (descriptor : Descriptor) (address : Bytes) (luck : AcceptLuck)
    (pending : 0 < m.accepts) (fresh : m.unused descriptor = true) :
    Moves platform m (.accept descriptor address luck)
      (m.ending (m.handleAccept platform descriptor address luck)) := by
  cases result : m.handleAccept platform descriptor address luck with
  | error abort => exact .aborted _ abort ⟨pending,result⟩
  | ok after =>
    obtain ⟨c,greeted,ok⟩ := bind_ok result
    simp only [List.length_append,List.length_singleton] at ok
    split at ok
    next more =>
      cases ok
      exact .accepted descriptor address luck c pending fresh greeted more
    next last =>
      obtain ⟨controllers,sent,ok⟩ := bind_ok ok
      cases ok
      exact .started descriptor address luck c controllers pending fresh greeted (Nat.not_lt.mp last) sent

theorem receive_moves (m : DhtperfMaster) (i : Nat) (c : ControllerConnection) (byte : UInt8) (reachable : Bool)
    (here : m.controllers[i]? = some c) (pending : c.reads ≠ []) :
    Moves platform m (.receive i byte reachable) (m.ending (m.handleRead platform i c byte reachable)) := by
  cases result : m.handleRead platform i c byte reachable with
  | error abort => exact .aborted _ abort ⟨c,here,pending,result⟩
  | ok final =>
    obtain ⟨⟨after,message⟩,read,ok⟩ := bind_ok result
    cases message with
    | none =>
      cases ok
      exact .reading i c after byte reachable here pending read
    | some message =>
      cases message with
      | report type value =>
        obtain ⟨results,pushed,ok⟩ := bind_ok ok
        cases ok
        exact .reported i c after byte reachable type value results here pending read pushed
      | finish =>
        cases ok
        exact .finished i c after byte reachable here pending read
      | dhtType type => cases ok
      | profile join leave put get => cases ok
      | start duration host entry self => cases ok

theorem act_moves (m after : DhtperfMaster) (action : Action) (acted : act platform m action = some after) :
    m.pc = .serving ∧ Moves platform m action after := by
  unfold act at acted
  by_cases serving : m.pc = .serving
  · refine ⟨serving,?_⟩
    rw [if_neg (not_not.mpr serving)] at acted
    cases action with
    | accept descriptor address luck =>
      simp only at acted
      split at acted
      next enabled =>
        cases acted
        exact accept_moves platform m descriptor address luck enabled.1 enabled.2
      next => cases acted
    | acceptError =>
      simp only at acted
      split at acted
      · cases acted
        exact .aborted _ .accept rfl
      · cases acted
    | receive i byte reachable =>
      simp only at acted
      split at acted
      next c here =>
        split at acted
        next pending =>
          cases acted
          exact receive_moves platform m i c byte reachable here pending
        next => cases acted
      next => cases acted
    | readError i reachable =>
      simp only at acted
      split at acted
      next c here =>
        split at acted
        next pending =>
          cases acted
          cases reachable with
          | false => exact .aborted _ .lookup ⟨rfl,rfl⟩
          | true => exact .disconnected i c here pending
        next => cases acted
      next => cases acted
    | transmit i index count beyond =>
      simp only at acted
      split at acted
      next c here =>
        obtain ⟨sent,transmitted,rfl⟩ := Option.map_eq_some_iff.mp acted
        exact .transmitted i index count beyond c sent here transmitted
      next => cases acted
    | writeError i =>
      simp only at acted
      split at acted
      next c here =>
        split at acted
        · cases acted
          exact .aborted _ .write rfl
        · cases acted
      next => cases acted
    | timeout =>
      simp only at acted
      split at acted
      next sent =>
        cases acted
        exact .timedOut sent
      next => cases acted
  · rw [if_pos serving] at acted
    cases acted

theorem moves_aborted (m after : DhtperfMaster) (action : Action) (moved : Moves platform m action after)
    (serving : m.pc = .serving) (abort : Abort) (aborted : after.pc = .aborted abort) :
    Fails platform m abort action := by
  have running : m.pc ≠ .aborted abort := fun same => nomatch serving.symm.trans same
  cases moved with
  | aborted _ other fails =>
    cases aborted
    exact fails
  | finished i c d byte reachable here pending read =>
    simp only [handleFinishMessage,controllerFinished] at aborted
    split at aborted
    · cases aborted
    · exact absurd aborted running
  | disconnected i c here pending =>
    simp only [handleDisconnection,controllerFinished] at aborted
    split at aborted
    · cases aborted
    · exact absurd aborted running
  | timedOut sent => cases aborted
  | _ => exact absurd aborted running

theorem step_setup (before after : DhtperfMaster) (step : Step platform before after) :
    after.workload = before.workload ∧ after.dhtType = before.dhtType := by
  obtain ⟨action,acted⟩ := step
  cases (act_moves platform before after action acted).2 <;> exact ⟨rfl,rfl⟩

theorem run_setup (first last : DhtperfMaster) (run : Relation.ReflTransGen (Step platform) first last) :
    last.workload = first.workload ∧ last.dhtType = first.dhtType := by
  induction run with
  | refl => exact ⟨rfl,rfl⟩
  | tail _ step kept =>
    have here := step_setup platform _ _ step
    exact ⟨here.1.trans kept.1,here.2.trans kept.2⟩

abbrev StepIf (allowed : DhtperfMaster → Action → Prop) : DhtperfMaster → DhtperfMaster → Prop :=
  Library.StepIf (act platform) allowed

theorem runIf_run (allowed : DhtperfMaster → Action → Prop) (first last : DhtperfMaster)
    (run : Relation.ReflTransGen (StepIf platform allowed) first last) :
    Relation.ReflTransGen (Step platform) first last :=
  Relation.ReflTransGen.mono (fun _ _ ⟨action,taken⟩ => ⟨action,taken.2⟩) _ _ run

theorem getElem?_update (m : DhtperfMaster) (i k : Nat) (d e : ControllerConnection)
    (found : (m.update i d).controllers[k]? = some e) : (k = i ∧ e = d) ∨ (k ≠ i ∧ m.controllers[k]? = some e) := by
  simp only [update,List.getElem?_set] at found
  split at found
  next equal =>
    split at found
    · exact Or.inl ⟨equal.symm,(Option.some.inj found).symm⟩
    · cases found
  next other => exact Or.inr ⟨Ne.symm other,found⟩

theorem sendStartMessages_each (luck : AcceptLuck) (message : Nat → Message) (i : Nat)
    (cs after : List ControllerConnection) (ok : sendStartMessages platform luck message i cs = .ok after) :
    after.length = cs.length ∧ ∀ (k : Nat) (e : ControllerConnection), after[k]? = some e →
      ∃ c bits, cs[k]? = some c ∧ (message (i + k)).toBits platform.order = .ok bits ∧
        e = (c.sentWith (message (i + k)) bits (c.immediate platform.writes (luck.startAtOnce (i + k)))).asyncWaitForMessage := by
  induction cs generalizing i after with
  | nil =>
    cases ok
    exact ⟨rfl,fun k e here => by simp at here⟩
  | cons c cs ih =>
    unfold sendStartMessages at ok
    simp only at ok
    split at ok
    · cases ok
    · split at ok
      · cases ok
      · obtain ⟨d,sent,ok⟩ := bind_ok ok
        obtain ⟨rest,others,ok⟩ := bind_ok ok
        cases ok
        obtain ⟨bits,written,rfl⟩ := ControllerConnection.sendMessage_shape platform.order _ c d _ _ sent
        obtain ⟨size,each⟩ := ih (i+1) rest others
        refine ⟨by simp [size],fun k e here => ?_⟩
        cases k with
        | zero =>
          cases here
          exact ⟨c,bits,rfl,written,rfl⟩
        | succ k =>
          rw [show i + (k+1) = i+1+k by omega]
          exact each k e here

def greeted (m : DhtperfMaster) (descriptor : Descriptor) (address first : Bytes) (luck : AcceptLuck) :
    ControllerConnection :=
  (ControllerConnection.make descriptor address).sentWith (.dhtType m.dhtType) first luck.dhtTypeAtOnce

theorem greet_shape (m : DhtperfMaster) (descriptor : Descriptor) (address : Bytes)
    (luck : AcceptLuck) (c : ControllerConnection) (ok : m.greet platform descriptor address luck = .ok c) :
    ∃ first p second, Message.toBits platform.order (.dhtType m.dhtType) = .ok first ∧
      m.workload.getNodeProfile m.controllers.length = some p ∧
      (profileMessage p).toBits platform.order = .ok second ∧
      c = (greeted m descriptor address first luck).sentWith (profileMessage p) second
        ((greeted m descriptor address first luck).immediate platform.writes luck.profileAtOnce) := by
  unfold greet at ok
  simp only at ok
  split at ok
  · cases ok
  · obtain ⟨b,sent,ok⟩ := bind_ok ok
    obtain ⟨first,written,rfl⟩ := ControllerConnection.sendMessage_shape platform.order _ _ b _ _ sent
    rw [ControllerConnection.immediate_idle _ _ _ rfl] at ok
    split at ok
    · cases ok
    next p given =>
      obtain ⟨second,written',rfl⟩ := ControllerConnection.sendMessage_shape platform.order _ _ c _ _ ok
      exact ⟨first,p,second,written,given,written',rfl⟩

theorem greet_idle (m : DhtperfMaster) (descriptor : Descriptor) (address : Bytes)
    (luck : AcceptLuck) (c : ControllerConnection) (ok : m.greet platform descriptor address luck = .ok c) :
    c.descriptor = descriptor ∧ c.address = address ∧ c.reads = [] ∧ c.taken = [] := by
  obtain ⟨first,p,second,_,_,_,rfl⟩ := greet_shape platform m descriptor address luck c ok
  exact ⟨rfl,rfl,rfl,rfl⟩

theorem moves_grow (m after : DhtperfMaster) (action : Action) (moved : Moves platform m action after) :
    m.controllers.length ≤ after.controllers.length ∧
      ∀ (i : Nat) (c d : ControllerConnection), m.controllers[i]? = some c → after.controllers[i]? = some d →
        c.sent <+: d.sent := by
  have replaced : ∀ (i : Nat) (c d : ControllerConnection), m.controllers[i]? = some c → c.sent = d.sent →
      m.controllers.length ≤ (m.update i d).controllers.length ∧
        ∀ (k : Nat) (b e : ControllerConnection), m.controllers[k]? = some b →
          (m.update i d).controllers[k]? = some e → b.sent <+: e.sent := by
    intro i c d here same
    refine ⟨by simp [update],fun k b e old new => ?_⟩
    rcases getElem?_update m i k d e new with ⟨rfl,rfl⟩ | ⟨_,kept⟩
    · rw [← same,Option.some.inj (old.symm.trans here)]
    · rw [Option.some.inj (old.symm.trans kept)]
  have kept : ∀ (i : Nat) (c d : ControllerConnection), m.controllers[i]? = some c → m.controllers[i]? = some d →
      c.sent <+: d.sent := fun i c d old new => by rw [Option.some.inj (old.symm.trans new)]
  cases moved with
  | aborted _ abort fails => exact ⟨Nat.le_refl _,kept⟩
  | timedOut _ => exact ⟨Nat.le_refl _,kept⟩
  | accepted descriptor address luck new pending fresh welcome more =>
    refine ⟨by simp,fun i c d old later => ?_⟩
    rw [List.getElem?_append_left (List.getElem?_eq_some_iff.mp old).1] at later
    exact kept i c d old later
  | started descriptor address luck new controllers pending fresh welcome last sent =>
    obtain ⟨length,each⟩ := sendStartMessages_each platform luck _ 0 _ controllers sent
    refine ⟨by simp [length],fun i c d old later => ?_⟩
    obtain ⟨b,bits,found,_,rfl⟩ := each i d later
    rw [List.getElem?_append_left (List.getElem?_eq_some_iff.mp old).1] at found
    rw [Option.some.inj (old.symm.trans found)]
    exact ⟨[_],rfl⟩
  | reading i c d byte reachable here pending read =>
    obtain ⟨⟨header,body,reads,rfl⟩,_⟩ := ControllerConnection.receive_shape _ _ c d byte none pending read
    exact replaced i c _ here rfl
  | reported i c d byte reachable type value results here pending read pushed =>
    obtain ⟨⟨header,body,reads,rfl⟩,_⟩ := ControllerConnection.receive_shape _ _ c d byte _ pending read
    exact replaced i c _ here rfl
  | finished i c d byte reachable here pending read =>
    obtain ⟨⟨header,body,reads,rfl⟩,_⟩ := ControllerConnection.receive_shape _ _ c d byte _ pending read
    exact replaced i c _ here rfl
  | disconnected i c here pending => exact replaced i c _ here rfl
  | transmitted i index count beyond c d here sent =>
    obtain ⟨writes,received,rfl⟩ := ControllerConnection.transmit_shape _ c d index count beyond sent
    exact replaced i c _ here rfl

/-! ### Properties of single connections -/

def Everywhere (holds : Bool → Nat → ControllerConnection → Prop) (m : DhtperfMaster) : Prop :=
  ∀ (i : Nat) (c : ControllerConnection), m.controllers[i]? = some c → holds m.startMessagesSent i c

/-- A property that ignores the read side is kept by a move if it is kept by the writes
and by the messages of that move. -/
theorem everywhere_moves (holds : Bool → Nat → ControllerConnection → Prop) (m after : DhtperfMaster)
    (action : Action) (moved : Moves platform m action after) (here : Everywhere holds m)
    (readOnly : ∀ started i c header body reads taken, holds started i c →
      holds started i {c with headerBuffer := header, bodyBuffer := body, reads := reads, taken := taken})
    (transmitted : ∀ i c d index count beyond, c.transmit platform.writes index count beyond = some d →
      holds m.startMessagesSent i c → holds m.startMessagesSent i d)
    (greeted : ∀ descriptor address luck c, action = .accept descriptor address luck → 0 < m.accepts →
      m.greet platform descriptor address luck = .ok c → holds m.startMessagesSent m.controllers.length c)
    (begun : ∀ descriptor address luck new i c bits, action = .accept descriptor address luck → 0 < m.accepts →
      m.workload.nodes.toNat ≤ m.controllers.length + 1 →
      m.greet platform descriptor address luck = .ok new → (m.controllers ++ [new])[i]? = some c →
      (startMessage m.workload ((m.controllers ++ [new]).map (·.address)) i).toBits platform.order = .ok bits →
      holds m.startMessagesSent i c →
      holds true i (c.sentWith (startMessage m.workload ((m.controllers ++ [new]).map (·.address)) i) bits
        (c.immediate platform.writes (luck.startAtOnce i)))) : Everywhere holds after := by
  have joined : ∀ descriptor address luck new, action = .accept descriptor address luck → 0 < m.accepts →
      m.greet platform descriptor address luck = .ok new →
      ∀ (i : Nat) (c : ControllerConnection), (m.controllers ++ [new])[i]? = some c →
        holds m.startMessagesSent i c := by
    intro descriptor address luck new accepting pending welcome i c found
    rw [List.getElem?_append] at found
    split at found
    next => exact here i c found
    next beyond =>
      rw [List.getElem?_singleton] at found
      split at found
      next last =>
        cases found
        have position : i = m.controllers.length := by omega
        exact position ▸ greeted descriptor address luck new accepting pending welcome
      next => cases found
  have replaced : ∀ (i : Nat) (c d : ControllerConnection), m.controllers[i]? = some c →
      (holds m.startMessagesSent i c → holds m.startMessagesSent i d) → Everywhere holds (m.update i d) := by
    intro i c d old change k e found
    rcases getElem?_update m i k d e found with ⟨rfl,rfl⟩ | found
    · exact change (here k c old)
    · exact here k e found.2
  cases moved with
  | aborted _ abort fails => exact here
  | timedOut _ => exact here
  | accepted descriptor address luck c pending fresh welcome more =>
    exact joined descriptor address luck c rfl pending welcome
  | started descriptor address luck new controllers pending fresh welcome last sent =>
    intro i e found
    obtain ⟨c,bits,old,written,rfl⟩ := (sendStartMessages_each platform luck _ 0 _ controllers sent).2 i e found
    rw [Nat.zero_add] at written ⊢
    exact readOnly _ _ _ _ _ _ _ (begun descriptor address luck new i c bits rfl pending last welcome old written
      (joined descriptor address luck new rfl pending welcome i c old))
  | reading i c d byte reachable old pending read =>
    obtain ⟨⟨header,body,reads,rfl⟩,_⟩ := ControllerConnection.receive_shape _ _ c d byte none pending read
    exact replaced i c _ old (readOnly _ i c header body reads _)
  | reported i c d byte reachable type value results old pending read pushed =>
    obtain ⟨⟨header,body,reads,rfl⟩,_⟩ := ControllerConnection.receive_shape _ _ c d byte _ pending read
    exact replaced i c _ old (readOnly _ i c header body _ _)
  | finished i c d byte reachable old pending read =>
    obtain ⟨⟨header,body,reads,rfl⟩,_⟩ := ControllerConnection.receive_shape _ _ c d byte _ pending read
    exact replaced i c _ old (readOnly _ i c header body reads _)
  | disconnected i c old pending =>
    exact replaced i c _ old (readOnly _ i c c.headerBuffer c.bodyBuffer _ c.taken)
  | transmitted i index count beyond c d old sent =>
    exact replaced i c _ old (transmitted i c d index count beyond sent)

end DhtperfMaster
end Dhtperf
