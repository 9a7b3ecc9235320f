import Dhtperf.DhtperfController.Termination
import Dhtperf.Experiment.Results
import Dhtperf.Library.Parts
import Dhtperf.Profile.Classes

/-! Does an experiment come to an end? Outside of the loops everything happens once: a
connection is accepted, a byte is written, a message is read. So it does if the loops do. -/
namespace Dhtperf
open Library Relation DhtperfController DhtperfMaster

/-! ### Loops that end -/

def PushesOnce (profile : Bytes) : Prop :=
  (splitProfileIntoTypeAndParams profile).1 = ascii "exact" ∨
    (splitProfileIntoTypeAndParams profile).1 = ascii "fulldictionary" ∨
    (splitProfileIntoTypeAndParams profile).1 = ascii "ntimesrandom" ∨
    (splitProfileIntoTypeAndParams profile).1 = ascii "none"

instance (profile : Bytes) : Decidable (PushesOnce profile) := inferInstanceAs (Decidable (_ ∨ _))

section
variable [heap : StdHeap]

theorem makeProfile_fixed (accepts : Distributions) (op : DhtOperation) (text : Bytes) (draws : Draws)
    (made : Profile op × Draws) (once : PushesOnce text)
    (ok : Profile.makeProfile accepts op text draws = .ok made) : made.1.kind.Fixed := by
  obtain ⟨type,named,ok⟩ := Profile.makeProfile_made accepts text draws made ok
  rw [PushesOnce,named] at once
  cases type with
  | exact =>
    rw [exact_made _ _ made ok]
    trivial
  | fullDictionary =>
    obtain ⟨_,_,_,_,_,_,_,kind,_⟩ := fullDictionary_made _ _ made ok
    rw [kind]
    trivial
  | nTimesRandom =>
    obtain ⟨_,_,_,_,_,_,_,kind,_⟩ := nTimesRandom_made _ _ made ok
    rw [kind]
    trivial
  | none =>
    cases ok
    trivial
  | interval => exact absurd once (by decide)
  | now => exact absurd once (by decide)
  | poissonRandom => exact absurd once (by decide)
  | weibullRandom => exact absurd once (by decide)

namespace Loop

theorem start_steady (accepts : Distributions) (texts : DhtOperation → Bytes) (duration : TimeUnit) (draws : Draws)
    (first : Loop) (once : ∀ op, PushesOnce (texts op))
    (accepted : start accepts (texts .join) (texts .leave) (texts .put) (texts .get) duration draws = .ok first) :
    Steady first := by
  obtain ⟨joins,joined,accepted⟩ := bind_ok accepted
  obtain ⟨leaves,left,accepted⟩ := bind_ok accepted
  obtain ⟨puts,put,accepted⟩ := bind_ok accepted
  obtain ⟨gets,got,accepted⟩ := bind_ok accepted
  cases accepted
  refine enter_steady _ (fun op => ?_) duration _
  cases op with
  | join => exact makeProfile_fixed accepts .join _ _ joins (once .join) joined
  | leave => exact makeProfile_fixed accepts .leave _ _ leaves (once .leave) left
  | put => exact makeProfile_fixed accepts .put _ _ puts (once .put) put
  | get => exact makeProfile_fixed accepts .get _ _ gets (once .get) got

theorem steady_ends (first : Loop) (steady : Steady first) : ¬Endless Slept first :=
  ends_of_measure Slept Steady measure (fun before after steady slept => slept_steady before after steady slept.1)
    slept_decreases first steady

omit heap in
def rests (s : Loop) : Nat :=
  match s.pc with
  | .sleeping toWait => s.clock + toWait.toNat * 1000000
  | _ => 0

omit heap in
/-- A timer does not ring early. -/
def Unhurried (s : Loop) : Action → Prop
  | .wake reading => s.rests ≤ reading
  | _ => True

omit heap in
instance (s : Loop) (action : Action) : Decidable (s.Unhurried action) :=
  match action with
  | .wake _ => inferInstanceAs (Decidable (_ ≤ _))
  | .pass _ => .isTrue trivial
  | .event _ _ => .isTrue trivial
  | .batchDone => .isTrue trivial

theorem act_slept (s after : Loop) (action : Action) (unhurried : s.Unhurried action)
    (acted : s.act action = some after) : Slept s after := by
  refine ⟨(step_act s after).mpr ⟨action,acted⟩,fun toWait here => ?_⟩
  cases action with
  | wake reading =>
    have until_then : s.rests = s.clock + toWait.toNat * 1000000 := by rw [rests,here]
    simp only [act,here] at acted
    split at acted
    next =>
      cases acted
      exact until_then.symm.trans_le unhurried
    next => cases acted
  | pass reading => simp [act,here] at acted
  | event attempts reading => simp [act,here] at acted
  | batchDone => simp [act,here] at acted

end Loop
end

/-! ### Messages to a controller -/

namespace DhtperfController

def ReceiverPc.ahead : ReceiverPc → Nat
  | .header stage => 6 - 2 * stage.index
  | .body stage _ => 5 - 2 * stage.index
  | .started => 0
  | .exited _ => 0

namespace Receiver
variable [heap : StdHeap] (accepts : Distributions) (draws : Draws)

/-- The message that a stage waits for brings the controller to the next one; any other would
leave it where it is. -/
theorem handle_ahead (r : Receiver) (stage : Stage) (message : Message) :
    handle accepts draws r stage message = r ∨
      (handle accepts draws r stage message).pc.ahead < 5 - 2 * stage.index := by
  cases stage with
  | dhtType =>
    cases message with
    | dhtType type =>
      refine .inr ?_
      simp only [handle]
      split <;> simp [ReceiverPc.ahead,Stage.index]
    | _ => exact .inl rfl
  | profile =>
    cases message with
    | profile join leave put get =>
      refine .inr ?_
      simp only [handle]
      split <;> simp [ReceiverPc.ahead,Stage.index]
    | _ => exact .inl rfl
  | start =>
    cases message with
    | start duration host entry self => exact .inr (by simp [handle,ReceiverPc.ahead,Stage.index])
    | _ => exact .inl rfl

theorem advance_ahead (order : ByteOrder) (input : Bytes) (r after : Receiver) (sent told : List Message)
    (placed : Placed order sent r) (later : Placed order told after)
    (ok : r.advance order accepts draws input = some after) : after.pc.ahead < r.pc.ahead := by
  unfold advance at ok
  split at ok
  next stage here =>
    split at ok
    next =>
      cases ok
      rw [here]
      dsimp only
      split <;> cases stage <;> simp [ReceiverPc.ahead,Stage.index]
    next => cases ok
  next stage header here =>
    split at ok
    next =>
      split at ok
      next =>
        cases ok
        rw [here]
        cases stage <;> simp [ReceiverPc.ahead,Stage.index]
      next message _ =>
        cases ok
        have now : r.pc.ahead = 5 - 2 * stage.index := by
          rw [here]
          rfl
        rw [now]
        rcases handle_ahead accepts draws _ stage message with same | less
        · -- It would have one message more in the same place.
          rw [same] at later
          unfold Placed at placed later
          simp only [here,List.length_append,List.length_singleton] at placed later
          omega
        · exact less
    next => cases ok
  next => cases ok
  next => cases ok

end Receiver
end DhtperfController

/-! ### Bytes on a connection -/

namespace ControllerConnection

theorem transmit_untransmitted (c after : ControllerConnection) (index count : Nat) (beyond : Bytes)
    (sent : c.transmit .intact index count beyond = some after) :
    after.untransmitted.length < c.untransmitted.length := by
  unfold transmit at sent
  split at sent
  next => cases sent
  next write here =>
    split at sent
    next fine =>
      cases sent
      obtain ⟨positive,inside,_,first⟩ := fine
      obtain rfl := first rfl
      obtain ⟨rest,pending⟩ : ∃ rest, c.writes = write :: rest := by
        cases writes : c.writes with
        | nil => simp [writes] at here
        | cons other rest =>
          rw [writes,List.getElem?_cons_zero,Option.some.injEq] at here
          exact ⟨rest,by rw [here]⟩
      unfold untransmitted
      rw [pending,List.flatMap_cons,List.length_append,List.length_drop]
      split
      next =>
        rw [List.set_cons_zero,List.flatMap_cons,List.length_append,List.length_drop]
        dsimp only
        omega
      next =>
        rw [List.eraseIdx_zero,List.tail_cons]
        dsimp only
        omega
    next => cases sent

end ControllerConnection

namespace DhtperfMaster

/-- What a move of the master does to the connection that it is about, whose controller will
have written so many bytes. -/
inductive Onward (size : Nat) (c d : ControllerConnection) : Prop
  | written (less : d.untransmitted.length < c.untransmitted.length)
  | read (same : d.untransmitted = c.untransmitted) (pending : c.reads ≠ [])
      (taken : d.taken.length = c.taken.length + 1) (room : c.taken.length < size)
  | lost (same : d.untransmitted = c.untransmitted) (pending : c.reads ≠ []) (closed : d.reads = [])

def opening (m : DhtperfMaster) : Nat :=
  m.workload.nodes.toNat - m.controllers.length + if m.pc = .serving then 1 else 0

theorem opening_finished (m : DhtperfMaster) (i : Nat) : (m.controllerFinished i).opening ≤ m.opening := by
  unfold opening controllerFinished
  refine Nat.add_le_add_left ?_ _
  dsimp only
  by_cases full : m.finishedControllers + 1 = m.workload.nodes
  · rw [if_pos full]
    exact Nat.zero_le _
  · rw [if_neg full]

/-- A move opens a connection or ends the service, or it brings one connection onward. -/
theorem moves_onward (platform : Platform) (intact : platform.writes = .intact) (results : Nat → Results)
    (m after : DhtperfMaster) (action : Action) (counts : Counts m) (serving : m.pc = .serving)
    (spoken : Spoken platform.order results m action) (moved : Moves platform m action after) :
    after.opening < m.opening ∨ after.opening ≤ m.opening ∧
      ∃ i c d, m.controllers[i]? = some c ∧ after.controllers = m.controllers.set i d ∧
        Onward (stream platform.order results i).length c d := by
  have updated (i : Nat) (d : ControllerConnection) : (m.update i d).opening = m.opening := by
    unfold opening update
    rw [List.length_set]
  cases moved with
  | aborted action abort fails => exact .inl (by simp [opening,serving])
  | timedOut sent => exact .inl (by simp [opening,serving])
  | accepted descriptor address luck c pending fresh greeted more =>
    refine .inl ?_
    simp only [opening,List.length_append,List.length_singleton]
    omega
  | started descriptor address luck c controllers pending fresh greeted last sent =>
    have size := (sendStartMessages_each platform luck _ 0 _ controllers sent).1
    have least := counts.size
    rw [(counts.quiet pending).1,if_neg Bool.false_ne_true] at least
    rw [List.length_append,List.length_singleton] at size
    refine .inl ?_
    simp only [opening,size]
    omega
  | reading i c d byte reachable here pending read =>
    obtain ⟨⟨header,body,reads,rfl⟩,_⟩ := ControllerConnection.receive_shape _ _ c d byte none pending read
    exact .inr ⟨(updated i _).le,i,c,_,here,rfl,
      .read rfl pending List.length_append (List.getElem?_eq_some_iff.mp (spoken c here)).1⟩
  | reported i c d byte reachable type value results here pending read pushed =>
    obtain ⟨⟨header,body,reads,rfl⟩,_⟩ := ControllerConnection.receive_shape _ _ c d byte _ pending read
    exact .inr ⟨(updated i _).le,i,c,_,here,rfl,
      .read rfl pending List.length_append (List.getElem?_eq_some_iff.mp (spoken c here)).1⟩
  | finished i c d byte reachable here pending read =>
    obtain ⟨⟨header,body,reads,rfl⟩,_⟩ := ControllerConnection.receive_shape _ _ c d byte _ pending read
    exact .inr ⟨(opening_finished _ i).trans (updated i _).le,i,c,_,here,rfl,
      .read rfl pending List.length_append (List.getElem?_eq_some_iff.mp (spoken c here)).1⟩
  | disconnected i c here pending =>
    have single := counts.each i c here
    have closed : c.reads.tail = [] := by
      have least := List.length_pos_iff.mpr pending
      refine List.length_eq_zero_iff.mp ?_
      rw [List.length_tail]
      split at single <;> omega
    exact .inr ⟨(opening_finished _ i).trans (updated i _).le,i,c,_,here,rfl,.lost rfl pending closed⟩
  | transmitted i index count beyond c d here sent =>
    rw [intact] at sent
    exact .inr ⟨(updated i d).le,i,c,d,here,rfl,
      .written (ControllerConnection.transmit_untransmitted c d index count beyond sent)⟩

end DhtperfMaster
namespace Experiment

section
variable [heap : StdHeap] (writes : WriteModel) (order : ByteOrder) (text : PosixTime) (accepts : Distributions)
  (draws : Nat → Draws)
  (time duration : Int → Prop)

omit heap in
def Unhurried (s : Experiment) : Action → Prop
  | .run i action => ∀ loop ∈ s.loops i, loop.Unhurried action
  | _ => True

omit heap in
instance (s : Experiment) (action : Action) : Decidable (s.Unhurried action) :=
  match action with
  | .run i action => inferInstanceAs (Decidable (∀ loop ∈ s.loops i, loop.Unhurried action))
  | .master _ => .isTrue trivial
  | .controller _ => .isTrue trivial
  | .start _ => .isTrue trivial

/-- Steps, failures of the network among them, on clocks whose timers do not ring early. -/
abbrev Going : Experiment → Experiment → Prop :=
  Library.StepIf (act writes order text accepts draws) fun s action =>
    Permitted order text time duration s action ∧ s.Unhurried action

theorem going_step (before after : Experiment)
    (going : Going .intact order text accepts draws time duration before after) :
    Step .intact order text accepts draws time duration before after := by
  obtain ⟨action,⟨permitted,_⟩,acted⟩ := going
  exact ⟨action,permitted,acted⟩

/-! ### What is left -/

omit heap in
/-- Bytes to a controller, its reads before `start`, and `start` itself. -/
def setup (s : Experiment) (i : Nat) : Nat :=
  (s.system.master.controllers[i]?.elim 0 fun c => c.untransmitted.length) +
    (s.system.receivers[i]?.elim 0 fun r => r.pc.ahead) + if (s.loops i).isSome then 0 else 1

omit heap in
def unread (s : Experiment) (i : Nat) : Nat :=
  s.system.master.controllers[i]?.elim 0 fun c =>
    if c.reads = [] then 0 else (stream order (s.results text) i).length - c.taken.length + 1

noncomputable def left (s : Experiment) (i : Nat) : Nat ×ₗ Ordinal.{0} ×ₗ Nat :=
  toLex (s.setup i,toLex ((s.loops i).elim 0 (height Loop.Slept),s.unread order text i))

noncomputable def remaining (n : Nat) (s : Experiment) : Nat ×ₗ (Fin n → Nat ×ₗ Ordinal.{0} ×ₗ Nat) :=
  toLex (s.system.master.opening,fun i => s.left order text i)

section
variable (before after : Experiment)

theorem remaining_less (n i : Nat) (bound : i < n)
    (opening : after.system.master.opening ≤ before.system.master.opening)
    (less : after.left order text i < before.left order text i)
    (same : ∀ k, k ≠ i → after.left order text k = before.left order text k) :
    after.remaining order text n < before.remaining order text n :=
  Prod.Lex.toLex_lt_toLex'.mpr ⟨opening,fun _ =>
    parts_less ⟨i,bound⟩ _ _ less fun k other => same k fun here => other (Fin.ext here)⟩

omit heap in
theorem unread_congr (i : Nat) (controller : after.system.master.controllers[i]? = before.system.master.controllers[i]?)
    (loop : after.loops i = before.loops i) : after.unread order text i = before.unread order text i := by
  unfold unread stream results
  rw [controller,loop]

theorem left_congr (i : Nat) (controller : after.system.master.controllers[i]? = before.system.master.controllers[i]?)
    (receiver : after.system.receivers[i]? = before.system.receivers[i]?) (loop : after.loops i = before.loops i) :
    after.left order text i = before.left order text i := by
  unfold left setup
  rw [unread_congr order text before after i controller loop,controller,receiver,loop]

theorem left_setup (i : Nat) (less : after.setup i < before.setup i) :
    after.left order text i < before.left order text i := Prod.Lex.toLex_lt_toLex.mpr (.inl less)

theorem onward_left (i : Nat) (c d : ControllerConnection) (here : before.system.master.controllers[i]? = some c)
    (there : after.system.master.controllers[i]? = some d)
    (receiver : after.system.receivers[i]? = before.system.receivers[i]?) (loop : after.loops i = before.loops i)
    (onward : Onward (stream order (before.results text) i).length c d) :
    after.left order text i < before.left order text i := by
  have same_stream : stream order (after.results text) i = stream order (before.results text) i := by
    unfold stream results
    rw [loop]
  have settled (same : d.untransmitted = c.untransmitted)
      (less : after.unread order text i < before.unread order text i) :
      after.left order text i < before.left order text i := by
    have setup : after.setup i = before.setup i := by
      unfold setup
      rw [here,there,receiver,loop,Option.elim_some,Option.elim_some,same]
    unfold left
    rw [setup,loop]
    exact Prod.Lex.toLex_lt_toLex.mpr (.inr ⟨rfl,Prod.Lex.toLex_lt_toLex.mpr (.inr ⟨rfl,less⟩)⟩)
  cases onward with
  | written less =>
    apply left_setup
    unfold setup
    rw [here,there,receiver,loop,Option.elim_some,Option.elim_some]
    omega
  | read same pending taken room =>
    apply settled same
    unfold unread
    rw [here,there,same_stream,Option.elim_some,Option.elim_some,if_neg pending]
    split <;> omega
  | lost same pending closed =>
    apply settled same
    unfold unread
    rw [here,there,Option.elim_some,Option.elim_some,if_neg pending,if_pos closed]
    exact Nat.succ_pos _

end

/-! ### Steps -/

/-- The loops that have been entered come to an end. -/
def Settled (s : Experiment) : Prop := ∀ i loop, s.loops i = some loop → ¬Endless Loop.Slept loop

section
variable (file dhtType : Bytes) (given : UInt32) (workload : MasterWorkload)
  (loaded : MasterWorkload.loadConfig file given = .ok (some workload)) (lowLatency : Bool) (acceptor : Descriptor)
  (s : Experiment)
  (run : ReflTransGen (Step .intact order text accepts draws time duration) (make workload dhtType lowLatency acceptor) s)
include run loaded

theorem started_texts (i : Nat) (r : Receiver) (place : s.system.receivers[i]? = some r) (started : r.pc = .started) :
    ∃ p, workload.getNodeProfile i = some p ∧ ∀ op, r.text op = p.text op := by
  have agreed := told_agreed order text accepts draws time duration file dhtType given workload loaded lowLatency
    acceptor s run (s.results text) (results_foreseen text s)
  have bound := (List.getElem?_eq_some_iff.mp place).1
  obtain ⟨p,profile,follows⟩ := agreed.follows i _ r (List.getElem?_eq_getElem (agreed.paired ▸ bound)) place
  refine ⟨p,profile,fun op => ?_⟩
  have handed := follows.handed
  unfold Receiver.Handed at handed
  rw [started] at handed
  unfold Receiver.text
  rw [handed]
  cases op <;> rfl

theorem node_bound (i : Nat) (bound : i < s.system.receivers.length) : i < workload.nodes.toNat := by
  have agreed := told_agreed order text accepts draws time duration file dhtType given workload loaded lowLatency
    acceptor s run (s.results text) (results_foreseen text s)
  have most := agreed.courteous.telling.counts.length_le
  rw [agreed.courteous.workload_eq] at most
  exact (bound.trans_le agreed.paired.le).trans_le most

theorem master_remaining (action : Dhtperf.Action) (master : DhtperfMaster)
    (permitted : Permitted order text time duration s (.master action))
    (made : DhtperfMaster.act ⟨order,text,.intact⟩ s.system.master action = some master) :
    remaining order text workload.nodes.toNat {s with system := ⟨master,s.system.receivers ++
      List.replicate (master.controllers.length - s.system.master.controllers.length) .make⟩} <
        s.remaining order text workload.nodes.toNat := by
  have agreed := told_agreed order text accepts draws time duration file dhtType given workload loaded lowLatency
    acceptor s run (s.results text) (results_foreseen text s)
  have spoken : Spoken order (s.results text) s.system.master action := by
    cases action with
    | receive i byte reachable => exact permitted.1
    | _ => trivial
  obtain ⟨serving,moves⟩ := DhtperfMaster.act_moves _ _ _ _ made
  rcases moves_onward ⟨order,text,.intact⟩ rfl (s.results text) s.system.master master action
    agreed.courteous.telling.counts serving spoken moves with less | ⟨kept,i,c,d,here,set,onward⟩
  · exact Prod.Lex.toLex_lt_toLex.mpr (.inl less)
  · have bound := (List.getElem?_eq_some_iff.mp here).1
    have none : master.controllers.length - s.system.master.controllers.length = 0 := by
      rw [set,List.length_set,Nat.sub_self]
    rw [none,List.replicate_zero,List.append_nil]
    refine remaining_less order text s _ _ i ?_ kept ?_ fun k other => ?_
    · exact node_bound order text accepts draws time duration file dhtType given workload loaded lowLatency acceptor s
        run i (agreed.paired.symm ▸ bound)
    · exact onward_left order text s _ i c d here (by rw [set,List.getElem?_set_self bound]) rfl rfl onward
    · exact left_congr order text s _ k (by rw [set,List.getElem?_set_ne (Ne.symm other)]) rfl rfl

theorem controller_remaining (i : Nat) (c : ControllerConnection) (r next : Receiver)
    (connected : s.system.master.controllers[i]? = some c) (place : s.system.receivers[i]? = some r)
    (advanced : r.advance order accepts (draws i) c.received = some next)
    (later : ReflTransGen (Step .intact order text accepts draws time duration)
      (make workload dhtType lowLatency acceptor)
      {s with system := {s.system with receivers := s.system.receivers.set i next}}) :
    remaining order text workload.nodes.toNat
      {s with system := {s.system with receivers := s.system.receivers.set i next}} <
        s.remaining order text workload.nodes.toNat := by
  have agreed (other : Experiment) (run : ReflTransGen (Step .intact order text accepts draws time duration)
      (make workload dhtType lowLatency acceptor) other) := told_agreed order text accepts draws time duration file
    dhtType given workload loaded lowLatency acceptor other run (other.results text) (results_foreseen text other)
  have bound := (List.getElem?_eq_some_iff.mp place).1
  have there : (s.system.receivers.set i next)[i]? = some next := List.getElem?_set_self bound
  obtain ⟨_,_,follows⟩ := (agreed s run).follows i c r connected place
  obtain ⟨_,_,followed⟩ := (agreed _ later).follows i c next connected there
  have less := Receiver.advance_ahead accepts (draws i) order c.received r next _ _ follows.placed followed.placed
    advanced
  refine remaining_less order text s _ _ i ?_ (Nat.le_refl _) ?_ fun k other => ?_
  · exact node_bound order text accepts draws time duration file dhtType given workload loaded lowLatency acceptor s run
      i bound
  · apply left_setup
    unfold setup
    rw [place,there,Option.elim_some,Option.elim_some]
    dsimp only
    omega
  · exact left_congr order text s _ k rfl (List.getElem?_set_ne (Ne.symm other)) rfl

theorem start_remaining (i : Nat) (r : Receiver) (first : Loop) (place : s.system.receivers[i]? = some r)
    (absent : s.loops i = none) : remaining order text workload.nodes.toNat
      {s with loops := Function.update s.loops i (some first)} < s.remaining order text workload.nodes.toNat := by
  refine remaining_less order text s _ _ i ?_ (Nat.le_refl _) ?_ fun k other => ?_
  · exact node_bound order text accepts draws time duration file dhtType given workload loaded lowLatency acceptor s
      run i (List.getElem?_eq_some_iff.mp place).1
  · apply left_setup
    unfold setup
    simp [absent]
  · exact left_congr order text s _ k rfl rfl (Function.update_of_ne other _ _)

omit loaded in
theorem loop_place (i : Nat) (loop : Loop) (here : s.loops i = some loop) : i < s.system.receivers.length := by
  obtain ⟨r,_,place,_⟩ := (run_linked order text accepts draws time duration dhtType workload lowLatency acceptor s
    run).begun i loop here
  exact (List.getElem?_eq_some_iff.mp place).1

theorem run_remaining (settled : Settled s) (i : Nat) (loop next : Loop) (here : s.loops i = some loop)
    (slept : Loop.Slept loop next) : remaining order text workload.nodes.toNat
      {s with loops := Function.update s.loops i (some next)} < s.remaining order text workload.nodes.toNat := by
  have less := height_less Loop.Slept loop next (settled i loop here) slept
  refine remaining_less order text s _ _ i ?_ (Nat.le_refl _) ?_ fun k other => ?_
  · exact node_bound order text accepts draws time duration file dhtType given workload loaded lowLatency acceptor s run
      i (loop_place order text accepts draws time duration dhtType workload lowLatency acceptor s run i loop here)
  · unfold left setup
    simp only [here,Function.update_self,Option.isSome_some,Option.elim_some]
    exact Prod.Lex.toLex_lt_toLex.mpr (.inr ⟨rfl,Prod.Lex.toLex_lt_toLex.mpr (.inl less)⟩)
  · exact left_congr order text s _ k rfl rfl (Function.update_of_ne other _ _)

theorem going_remaining (after : Experiment) (settled : Settled s)
    (going : Going .intact order text accepts draws time duration s after) :
    after.remaining order text workload.nodes.toNat < s.remaining order text workload.nodes.toNat := by
  obtain ⟨action,⟨permitted,unhurried⟩,acted⟩ := going
  cases act_moves .intact order text accepts draws s after action acted with
  | master action master made =>
    exact master_remaining order text accepts draws time duration file dhtType given workload loaded lowLatency acceptor
      s run action master permitted made
  | controller i c r next connected place advanced =>
    exact controller_remaining order text accepts draws time duration file dhtType given workload loaded lowLatency
      acceptor s run i c r next connected place advanced (run.tail ⟨.controller i,trivial,acted⟩)
  | start i r first place absent started entered =>
    exact start_remaining order text accepts draws time duration file dhtType given workload loaded lowLatency acceptor
      s run i r first place absent
  | run i action loop next here moved =>
    exact run_remaining order text accepts draws time duration file dhtType given workload loaded lowLatency acceptor s
      run settled i loop next here (loop.act_slept next action (unhurried loop here) moved)

/-- The loops of a node come to an end, or its profiles push all their events at once. -/
def Ends (p : MasterWorkloadProfile) (draws : Draws) : Prop :=
  (∀ op, PushesOnce (p.text op)) ∨ ∀ first, Loop.start accepts (p.text .join) (p.text .leave) (p.text .put)
    (p.text .get) workload.duration draws = .ok first → ¬Endless Loop.Slept first

theorem going_settled (after : Experiment)
    (ends : ∀ i p, workload.getNodeProfile i = some p → Ends accepts workload p (draws i)) (settled : Settled s)
    (going : Going .intact order text accepts draws time duration s after) : Settled after := by
  obtain ⟨action,⟨_,unhurried⟩,acted⟩ := going
  have replaced (i : Nat) (loop : Loop) (fine : ¬Endless Loop.Slept loop) :
      Settled {s with loops := Function.update s.loops i (some loop)} := by
    intro k other here
    by_cases same : k = i
    · subst same
      simp only [Function.update_self] at here
      cases here
      exact fine
    · simp only [Function.update_of_ne same] at here
      exact settled k other here
  cases act_moves .intact order text accepts draws s after action acted with
  | master action master made => exact settled
  | controller i c r next connected place advanced => exact settled
  | start i r first place absent started entered =>
    apply replaced
    obtain ⟨p,profile,texts⟩ := started_texts order text accepts draws time duration file dhtType given workload
      loaded lowLatency acceptor s run i r place started
    have same := (started_given order text accepts draws time duration file dhtType given workload loaded
      lowLatency acceptor s run i r place started).1
    unfold Receiver.enter at entered
    rw [texts,texts,texts,texts,same] at entered
    rcases ends i p profile with once | fine
    · exact first.steady_ends (Loop.start_steady accepts p.text workload.duration (draws i) first once entered)
    · exact fine first entered
  | run i action loop next here moved =>
    have slept := loop.act_slept next action (unhurried loop here) moved
    exact replaced i next fun endless => settled i loop here (endless.head Loop.Slept loop next slept)

end

/-- Whatever the order of steps and whatever fails, an experiment whose loops come to an end
does so too; and so do the loops of profiles that push all their events at once. Every call
for an event is one that returns: a join that is refused for ever is no step of a loop. -/
theorem experiment_terminates (file dhtType : Bytes) (given : UInt32) (workload : MasterWorkload)
    (loaded : MasterWorkload.loadConfig file given = .ok (some workload)) (lowLatency : Bool) (acceptor : Descriptor)
    (ends : ∀ i p, workload.getNodeProfile i = some p → Ends accepts workload p (draws i)) :
    ¬Endless (Going .intact order text accepts draws time duration) (make workload dhtType lowLatency acceptor) := by
  refine ends_of_measure _ (fun s => ReflTransGen (Step .intact order text accepts draws time duration)
    (make workload dhtType lowLatency acceptor) s ∧ Settled s) (remaining order text workload.nodes.toNat) ?_ ?_ _
    ⟨.refl,fun i loop here => by cases here⟩
  · rintro before after ⟨run,settled⟩ going
    exact ⟨run.tail (going_step order text accepts draws time duration before after going),
      going_settled order text accepts draws time duration file dhtType given workload loaded lowLatency acceptor before
        run after ends settled going⟩
  · rintro before after ⟨run,settled⟩ going
    exact going_remaining order text accepts draws time duration file dhtType given workload loaded lowLatency acceptor
      before run after settled going

end

theorem visit_terminates : ¬Endless (@Going plainHeap .intact .little NodeLatency.oneDay
    ⟨fun _ => true,fun _ _ => true⟩ (fun _ _ => 0) (· ∈ [5,7]) (· ∈ [100,2000000])) (make visitWorkload (ascii "dummy") true 3) := by
  refine @experiment_terminates plainHeap _ _ _ _ _ _ visitFile (ascii "dummy") 0 visitWorkload visit_loaded true 3 ?_
  intro i p profile
  obtain ⟨name,_,found⟩ := Option.bind_eq_some_iff.mp profile
  have listed := List.mem_of_find?_eq_some found
  rw [List.mem_singleton.mp listed]
  exact .inl fun op => by cases op <;> decide

end Experiment
end Dhtperf
