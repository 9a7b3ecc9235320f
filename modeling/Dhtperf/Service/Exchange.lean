import Dhtperf.Service.Dhtperfd
import Dhtperf.Library.Runs

/-! The daemon and the clients that come to it. It serves them one after the other, in the
order in which they have connected, and both sides read word by word what has arrived so far. -/
namespace Dhtperf.Service
open Library Relation Utils

/-- `argv[2]` of the client, with `argv[3]` for a start. -/
inductive ClientCommand
  | ping
  | start (host : Bytes)
  | stop
  | update
  | version
  deriving DecidableEq

def ClientCommand.text : ClientCommand → Bytes
  | .ping => msgPing ++ [10]
  | .start host => msgStart ++ [32] ++ host ++ [10]
  | .stop => msgStop ++ [10]
  | .update => msgUpdate ++ [10]
  | .version => msgVersion ++ [10]

/-- How far a client has come. It ends with an acknowledgement, with any other word in its
place, or when its timeout thread has waited. -/
inductive ClientPc
  | connecting
  | version
  | reply
  | acknowledged
  | wrong
  | timedOut
  deriving DecidableEq

namespace ClientPc

def hungUp : ClientPc → Bool
  | .acknowledged => true
  | .wrong => true
  | .timedOut => true
  | _ => false

end ClientPc

/-- A client with its connection: in each direction the bytes on their way and those that have
arrived. -/
structure Peer where
  pc : ClientPc
  sending : Bytes
  arrived : Bytes
  replying : Bytes
  received : Bytes
  closed : Bool

namespace Peer

def make : Peer := ⟨.connecting,[],[],[],[],false⟩

/-- The client behind `connect`: only the version is read before the reply. -/
def connected (command : ClientCommand) : Peer :=
  ⟨if command = .version then .version else .reply,command.text,[],[],[],false⟩

/-- The client's end is closed and everything it has sent has arrived. -/
def ended (peer : Peer) : Bool := peer.pc.hungUp && peer.sending.isEmpty

/-- A word of the reply is known when something follows it, or nothing can. -/
def heard (peer : Peer) : Bool :=
  (readWord (some peer.received)).2.isSome || peer.closed && peer.replying.isEmpty

def hear (peer : Peer) : Option Peer :=
  if peer.heard then
    let (word,stream) := readWord (some peer.received)
    match peer.pc with
    | .version =>
      match stream with
      | some rest => some {peer with pc := .reply, received := rest}
      -- The next word is empty.
      | none => some {peer with pc := .wrong, received := []}
    | .reply => some {peer with pc := if word = msgAck then .acknowledged else .wrong, received := stream.getD []}
    | _ => none
  else none

end Peer

/-- `handle_client` waits for more of its client. -/
def waits (stream : Bytes) : Bool :=
  match readWord (some stream) with
  | (_,none) => true
  | (msg,some rest) => msg = msgStart ∧ (readWord (some rest)).2 = none

structure Entry where
  client : Nat
  controllerNumber : Nat
  commands : List Bytes

/-- The loop of `do_serve`, the connections that wait for it, and the clients. -/
structure Exchange where
  serving : Option Nat
  backlog : List Nat
  controllerNumber : Nat
  log : List Entry
  peers : Nat → Peer

namespace Exchange

inductive Action
  | connect (i : Nat)
  | refuse (i : Nat)
  | timeout (i : Nat)
  | carry (i : Nat)
  | carryBack (i : Nat)
  | hear (i : Nat)
  | accept
  | serve

def make : Exchange := ⟨none,[],0,[],fun _ => .make⟩

def setPeer (s : Exchange) (i : Nat) (peer : Peer) : Exchange := {s with peers := Function.update s.peers i peer}

def finish (s : Exchange) (i : Nat) (served : Served) : Exchange :=
  {s.setPeer i {s.peers i with replying := served.reply, closed := true} with
    serving := none
    controllerNumber := served.controllerNumber
    log := s.log ++ [⟨i,s.controllerNumber,served.commands⟩]}

variable (version : Bytes) (requests : List ClientCommand)

def act (s : Exchange) : Action → Option Exchange
  | .connect i =>
    match requests[i]? with
    | some command =>
      if (s.peers i).pc = .connecting then some {s.setPeer i (.connected command) with backlog := s.backlog ++ [i]}
      else none
    | none => none
  | .refuse i =>
    if i < requests.length ∧ (s.peers i).pc = .connecting then some (s.setPeer i {s.peers i with pc := .wrong}) else none
  | .timeout i =>
    if i < requests.length ∧ (s.peers i).pc.hungUp = false then some (s.setPeer i {s.peers i with pc := .timedOut})
    else none
  | .carry i =>
    match (s.peers i).sending with
    | [] => none
    | byte :: rest =>
      some (s.setPeer i {s.peers i with sending := rest, arrived := (s.peers i).arrived ++ [byte]})
  | .carryBack i =>
    match (s.peers i).replying with
    | [] => none
    | byte :: rest =>
      some (s.setPeer i {s.peers i with replying := rest, received := (s.peers i).received ++ [byte]})
  | .hear i => (s.peers i).hear.map (s.setPeer i)
  | .accept =>
    match s.serving,s.backlog with
    | none,i :: rest => some {s with serving := some i, backlog := rest}
    | _,_ => none
  | .serve =>
    match s.serving with
    | some i =>
      if waits (s.peers i).arrived = false ∨ (s.peers i).ended then
        some (s.finish i (handleClient version s.controllerNumber (s.peers i).arrived))
      else none
    | none => none

abbrev Step : Exchange → Exchange → Prop := StepIf (act version requests) fun _ _ => True

end Exchange

/-! ### Words that are there -/

theorem dropWhile_more (p : UInt8 → Bool) (text more : Bytes) (left : text.dropWhile p ≠ []) :
    (text ++ more).dropWhile p = text.dropWhile p ++ more := by
  rw [List.dropWhile_append,if_neg (by simpa using left)]

theorem takeWhile_more (p : UInt8 → Bool) (text more : Bytes) (left : text.dropWhile p ≠ []) :
    (text ++ more).takeWhile p = text.takeWhile p := by
  rw [List.takeWhile_append,if_neg]
  intro same
  have split := congrArg List.length (List.takeWhile_append_dropWhile (p := p) (l := text))
  rw [List.length_append] at split
  exact left (List.length_eq_zero_iff.mp (by omega))

theorem readWord_append (text more word rest : Bytes) (read : readWord (some text) = (word,some rest)) :
    readWord (some (text ++ more)) = (word,some (rest ++ more)) := by
  obtain ⟨rfl,behind⟩ := Prod.mk.inj read
  split at behind
  next => cases behind
  next ends =>
    cases behind
    have visible : text.dropWhile isSpace ≠ [] := by
      intro none
      rw [none] at ends
      exact ends rfl
    have kept : (text.dropWhile isSpace).dropWhile (!isSpace ·) ++ more ≠ [] := List.append_ne_nil_of_left_ne_nil ends _
    simp only [readWord,dropWhile_more _ text more visible,dropWhile_more _ _ more ends,takeWhile_more _ _ more ends,
      if_neg kept]

theorem readWord_blank (text : Bytes) (blank : text.all isSpace = true) : readWord (some text) = ([],none) := by
  have nothing : text.dropWhile isSpace = [] := List.dropWhile_eq_nil_iff.mpr (List.all_eq_true.mp blank)
  simp only [readWord,nothing]
  rfl

theorem readWord_line (text : Bytes) (visible : text.all isSpace = false) :
    (readWord (some (text ++ [10]))).2.isSome = true := by
  have shown : text.dropWhile isSpace ≠ [] := by
    intro none
    have all := List.all_eq_true.mpr (List.dropWhile_eq_nil_iff.mp none)
    rw [visible] at all
    cases all
  have ends : (text.dropWhile isSpace ++ [10]).dropWhile (!isSpace ·) ≠ [] := by
    intro none
    have newline := List.dropWhile_eq_nil_iff.mp none 10 (by simp)
    exact absurd newline (by decide)
  simp only [readWord,dropWhile_more _ text [10] shown,if_neg ends]
  rfl

theorem handleClient_append (version : Bytes) (controllerNumber : Nat) (text more : Bytes)
    (enough : waits text = false) : handleClient version controllerNumber (text ++ more) =
      handleClient version controllerNumber text ∧ waits (text ++ more) = false := by
  cases read : readWord (some text) with
  | mk msg stream =>
    cases stream with
    | none => simp [waits,read] at enough
    | some rest =>
      have longer := readWord_append text more msg rest read
      by_cases start : msg = msgStart
      · cases host : readWord (some rest) with
        | mk word stream =>
          cases stream with
          | none => simp [waits,read,start,host] at enough
          | some behind =>
            have also := readWord_append rest more word behind host
            simp [handleClient,waits,read,longer,host,also,reply]
      · simp [handleClient,waits,read,longer,start,reply]

/-! ### What the clients send -/

namespace ClientCommand

def isBlank : ClientCommand → Bool
  | .start host => host.all isSpace
  | _ => false

def isStart : ClientCommand → Bool
  | .start _ => true
  | _ => false

def answer (version : Bytes) : ClientCommand → Bytes
  | .version => version ++ [10] ++ (msgAck ++ [10])
  | _ => msgAck ++ [10]

theorem start_read (host : Bytes) :
    readWord (some (text (.start host))) = (msgStart,some (32 :: (host ++ [10]))) := by
  have first : readWord (some (msgStart ++ [32])) = (msgStart,some [32]) := by decide
  have whole := readWord_append _ (host ++ [10]) _ _ first
  rw [text,List.append_assoc (msgStart ++ [32]),whole]
  rfl

theorem host_read (host : Bytes) : (readWord (some (32 :: (host ++ [10])))).2.isSome = !host.all isSpace := by
  cases blank : host.all isSpace with
  | true =>
    have all : (32 :: (host ++ [10])).all isSpace = true := by
      simp only [List.all_cons,List.all_append,blank]
      decide
    rw [readWord_blank _ all]
    rfl
  | false => exact readWord_line (32 :: host) (by simp [blank])

theorem text_waits (command : ClientCommand) : waits command.text = command.isBlank := by
  cases command with
  | start host =>
    have read := host_read host
    unfold waits
    rw [start_read]
    cases behind : (readWord (some (32 :: (host ++ [10])))).2 <;> rw [behind] at read <;>
      simpa [behind,isBlank] using read
  | ping => decide
  | stop => decide
  | update => decide
  | version => decide

theorem text_served (version : Bytes) (controllerNumber : Nat) (command : ClientCommand) :
    (handleClient version controllerNumber command.text).reply =
        (if command.isBlank then [] else command.answer version) ∧
      (handleClient version controllerNumber command.text).controllerNumber =
        controllerNumber + if command.isStart then 1 else 0 := by
  cases command with
  | start host =>
    have read : (readWord (some (32 :: (host ++ [10])))).2.isSome = !isBlank (.start host) := host_read host
    have other : msgStart ≠ msgPing := by decide
    simp only [handleClient,start_read,other,if_true,if_false,isStart,reply,answer,read]
    cases isBlank (.start host) <;> exact ⟨rfl,trivial⟩
  | ping => exact ⟨rfl,rfl⟩
  | stop => exact ⟨rfl,rfl⟩
  | update => exact ⟨rfl,rfl⟩
  | version => exact ⟨rfl,rfl⟩

end ClientCommand

/-! ### Where a client stands -/

structure IsWord (text : Bytes) : Prop where
  nonempty : text ≠ []
  visible : ∀ c ∈ text, isSpace c = false

instance (text : Bytes) : Decidable (IsWord text) :=
  decidable_of_iff (text ≠ [] ∧ text.all (!isSpace ·) = true)
    ⟨fun ⟨nonempty,visible⟩ => ⟨nonempty,by simpa using visible⟩,
      fun ⟨nonempty,visible⟩ => ⟨nonempty,by simpa using visible⟩⟩

theorem IsWord.read (text more : Bytes) (word : IsWord text) :
    readWord (some (text ++ 10 :: more)) = (text,some (10 :: more)) := by
  obtain ⟨first,rest,rfl⟩ := List.exists_cons_of_ne_nil word.nonempty
  have start : isSpace first = false := word.visible first List.mem_cons_self
  have skipped : (first :: rest ++ 10 :: more).dropWhile isSpace = first :: rest ++ 10 :: more := by
    simp [start]
  have shown : ∀ c ∈ first :: rest, (!isSpace c) = true := fun c member => by simp [word.visible c member]
  have newline : (10 :: more).takeWhile (!isSpace ·) = [] := by simp [isSpace]
  have behind : (10 :: more).dropWhile (!isSpace ·) = 10 :: more := by simp [isSpace]
  simp only [readWord,skipped,List.takeWhile_append_of_pos shown,List.dropWhile_append_of_pos shown,newline,behind,
    List.append_nil]
  rfl

/-- A client that has not connected, waits to be served, or has been served. -/
inductive Standing (version : Bytes) (command : ClientCommand) (peer : Peer) (queued served : Prop) : Prop
  | outside (empty : peer = {Peer.make with pc := peer.pc}) (here : peer.pc ≠ .version ∧ peer.pc ≠ .reply ∧
      peer.pc ≠ .acknowledged) (out : ¬queued) (fresh : ¬served)
  | queued (sent : peer.arrived ++ peer.sending = command.text) (silent : peer.replying = [] ∧ peer.received = [])
      (opened : peer.closed = false) (here : peer.pc = .timedOut ∨ peer.pc = (Peer.connected command).pc)
      (waiting : queued) (fresh : ¬served)
  | gone (here : peer.pc = .timedOut) (closed : peer.closed = true) (out : ¬queued) (done : served)
  | version (here : peer.pc = .version) (closed : peer.closed = true)
      (told : peer.received ++ peer.replying = version ++ 10 :: (msgAck ++ [10])) (full : command.isBlank = false)
      (out : ¬queued) (done : served)
  | reply (rest : Bytes) (here : peer.pc = .reply) (closed : peer.closed = true)
      (told : readWord (some (peer.received ++ peer.replying)) = (msgAck,some rest)) (full : command.isBlank = false)
      (out : ¬queued) (done : served)
  | acknowledged (here : peer.pc = .acknowledged) (full : command.isBlank = false) (closed : peer.closed = true)
      (out : ¬queued) (done : served)

theorem Peer.heard_word (peer : Peer) (word rest : Bytes) (heard : peer.heard = true)
    (whole : readWord (some (peer.received ++ peer.replying)) = (word,some rest)) :
    ∃ left, readWord (some peer.received) = (word,some left) ∧ rest = left ++ peer.replying := by
  cases read : readWord (some peer.received) with
  | mk found stream =>
    cases stream with
    | none =>
      simp only [Peer.heard,read,Option.isSome_none,Bool.false_or,Bool.and_eq_true,List.isEmpty_iff] at heard
      rw [heard.2,List.append_nil,read] at whole
      cases whole
    | some left =>
      have longer := readWord_append peer.received peer.replying found left read
      obtain ⟨rfl,same⟩ := Prod.mk.inj (longer.symm.trans whole)
      exact ⟨left,rfl,(Option.some.inj same).symm⟩

theorem connected_pc (command : ClientCommand) :
    (Peer.connected command).pc = .version ∨ (Peer.connected command).pc = .reply := by
  unfold Peer.connected
  dsimp only
  split
  · exact .inl rfl
  · exact .inr rfl

section
variable {version : Bytes} {command : ClientCommand} {peer after : Peer} {queued served : Prop}
  (standing : Standing version command peer queued served)
include standing

theorem Standing.connecting (here : peer.pc = .connecting) : peer = .make ∧ ¬queued ∧ ¬served := by
  cases standing with
  | outside empty at_start out fresh => exact ⟨by rw [empty,here]; rfl,out,fresh⟩
  | queued sent silent opened at_queue waiting fresh =>
    have first := connected_pc command
    rw [here] at at_queue
    simp [← at_queue.resolve_left (by simp)] at first
  | gone at_end closed out done => rw [at_end] at here; cases here
  | version at_version closed told full out done => rw [at_version] at here; cases here
  | reply rest at_reply closed told full out done => rw [at_reply] at here; cases here
  | acknowledged at_end full closed out done => rw [at_end] at here; cases here

theorem Standing.answered (here : peer.pc = .acknowledged) : served ∧ command.isBlank = false := by
  cases standing with
  | acknowledged at_end full closed out done => exact ⟨done,full⟩
  | outside empty at_start out fresh => exact absurd here at_start.2.2
  | queued sent silent opened at_queue waiting fresh =>
    have first := connected_pc command
    rw [here] at at_queue
    simp [← at_queue.resolve_left (by simp)] at first
  | gone at_end closed out done => rw [at_end] at here; cases here
  | version at_version closed told full out done => rw [at_version] at here; cases here
  | reply rest at_reply closed told full out done => rw [at_reply] at here; cases here

theorem Standing.refused (here : peer.pc = .wrong) : ¬queued ∧ ¬served := by
  cases standing with
  | outside empty at_start out fresh => exact ⟨out,fresh⟩
  | queued sent silent opened at_queue waiting fresh =>
    have first := connected_pc command
    rw [here] at at_queue
    simp [← at_queue.resolve_left (by simp)] at first
  | gone at_end closed out done => rw [at_end] at here; cases here
  | version at_version closed told full out done => rw [at_version] at here; cases here
  | reply rest at_reply closed told full out done => rw [at_reply] at here; cases here
  | acknowledged at_end full closed out done => rw [at_end] at here; cases here

theorem Standing.unanswered (waiting : queued) : peer.replying = [] ∧ peer.closed = false := by
  cases standing with
  | queued sent silent opened at_queue waiting fresh => exact ⟨silent.1,opened⟩
  | outside empty at_start out fresh => exact absurd waiting out
  | gone at_end closed out done => exact absurd waiting out
  | version at_version closed told full out done => exact absurd waiting out
  | reply rest at_reply closed told full out done => exact absurd waiting out
  | acknowledged at_end full closed out done => exact absurd waiting out

theorem Standing.timeout :
    Standing version command {peer with pc := .timedOut} queued served := by
  cases standing with
  | outside empty here out fresh => exact .outside (by rw [empty]) (by simp) out fresh
  | queued sent silent opened here waiting fresh => exact .queued sent silent opened (.inl rfl) waiting fresh
  | gone here closed out done => exact .gone rfl closed out done
  | version here closed told full out done => exact .gone rfl closed out done
  | reply rest here closed told full out done => exact .gone rfl closed out done
  | acknowledged here full closed out done => exact .gone rfl closed out done

theorem Standing.carry (byte : UInt8) (rest : Bytes) (here : peer.sending = byte :: rest) :
    Standing version command {peer with sending := rest, arrived := peer.arrived ++ [byte]} queued served := by
  cases standing with
  | outside empty at_start out fresh =>
    rw [empty] at here
    cases here
  | queued sent silent opened at_queue waiting fresh =>
    refine .queued ?_ silent opened at_queue waiting fresh
    rw [← sent,here,List.append_assoc]
    rfl
  | gone at_end closed out done => exact .gone at_end closed out done
  | version at_version closed told full out done => exact .version at_version closed told full out done
  | reply rest at_reply closed told full out done => exact .reply rest at_reply closed told full out done
  | acknowledged at_end full closed out done => exact .acknowledged at_end full closed out done

theorem Standing.carryBack (byte : UInt8) (rest : Bytes) (here : peer.replying = byte :: rest) :
    Standing version command {peer with replying := rest, received := peer.received ++ [byte]} queued served := by
  have same : peer.received ++ [byte] ++ rest = peer.received ++ peer.replying := by
    rw [here,List.append_assoc]
    rfl
  cases standing with
  | outside empty at_start out fresh =>
    rw [empty] at here
    cases here
  | queued sent silent opened at_queue waiting fresh =>
    rw [silent.1] at here
    cases here
  | gone at_end closed out done => exact .gone at_end closed out done
  | version at_version closed told full out done => exact .version at_version closed (same.trans told) full out done
  | reply more at_reply closed told full out done =>
    exact .reply more at_reply closed (by rw [← told]; exact congrArg (readWord ∘ some) same) full out done
  | acknowledged at_end full closed out done => exact .acknowledged at_end full closed out done

theorem Standing.hear (word : IsWord version) (heard : peer.hear = some after) :
    Standing version command after queued served := by
  unfold Peer.hear at heard
  split at heard
  next known =>
    cases standing with
    | outside empty here out fresh =>
      have nothing : peer.heard = false := by
        rw [empty]
        rfl
      rw [nothing] at known
      cases known
    | queued sent silent opened here waiting fresh =>
      have nothing : peer.heard = false := by
        simp only [Peer.heard,silent.2,opened]
        rfl
      rw [nothing] at known
      cases known
    | gone here closed out done => simp [here] at heard
    | acknowledged here full closed out done => simp [here] at heard
    | version here closed told full out done =>
      obtain ⟨left,read,rest⟩ := peer.heard_word version (10 :: (msgAck ++ [10])) known
        (by rw [told]; exact word.read version _)
      simp only [read,here,Option.some.injEq] at heard
      subst heard
      have acks : readWord (some (10 :: (msgAck ++ [10]))) = (msgAck,some [10]) := by decide
      exact .reply [10] rfl closed (by rw [← rest]; exact acks) full out done
    | reply rest here closed told full out done =>
      obtain ⟨left,read,_⟩ := peer.heard_word msgAck rest known told
      simp only [read,here,Option.some.injEq,if_true] at heard
      subst heard
      exact .acknowledged rfl full closed out done
  next => cases heard

end

theorem Standing.congr (version : Bytes) (command : ClientCommand) (peer : Peer) (queued served queued' served' : Prop)
    (standing : Standing version command peer queued served) (same : queued' ↔ queued) (also : served' ↔ served) :
    Standing version command peer queued' served' := by
  rw [propext same,propext also]
  exact standing

namespace Exchange

/-! ### Every step keeps the books -/

def pending (s : Exchange) : List Nat := s.serving.toList ++ s.backlog

def served (s : Exchange) : List Nat := s.log.map Entry.client

def starts (requests : List ClientCommand) (entry : Entry) : Bool := requests[entry.client]?.any ClientCommand.isStart

theorem finish_served (s : Exchange) (i : Nat) (result : Served) : (s.finish i result).served = s.served ++ [i] :=
  List.map_append

theorem finish_pending (s : Exchange) (i : Nat) (result : Served) : (s.finish i result).pending = s.backlog := rfl

structure Kept (version : Bytes) (requests : List ClientCommand) (s : Exchange) : Prop where
  distinct : (s.served ++ s.pending).Nodup
  known : ∀ i ∈ s.served ++ s.pending, i < requests.length
  outsiders : ∀ i, requests[i]? = none → s.peers i = .make
  standing : ∀ i command, requests[i]? = some command →
    Standing version command (s.peers i) (i ∈ s.pending) (i ∈ s.served)
  entries : ∀ entry ∈ s.log, ∀ command, requests[entry.client]? = some command →
    entry.commands = (handleClient version entry.controllerNumber command.text).commands
  numbers : (s.log.filter (starts requests)).map Entry.controllerNumber = List.range s.controllerNumber

section
variable (version : Bytes) (requests : List ClientCommand) (s after : Exchange)

theorem make_kept : Kept version requests .make where
  distinct := List.nodup_nil
  known := fun i member => absurd member List.not_mem_nil
  outsiders := fun i _ => rfl
  standing := fun i command _ => .outside rfl (by simp [make,Peer.make]) List.not_mem_nil List.not_mem_nil
  entries := fun entry member => absurd member List.not_mem_nil
  numbers := rfl

variable (kept : Kept version requests s)
include kept

theorem setPeer_kept (i : Nat) (peer : Peer) (command : ClientCommand) (here : requests[i]? = some command)
    (standing : Standing version command peer (i ∈ s.pending) (i ∈ s.served)) :
    Kept version requests (s.setPeer i peer) := by
  refine ⟨kept.distinct,kept.known,fun j none => ?_,fun j other there => ?_,kept.entries,kept.numbers⟩
  · have apart : j ≠ i := by
      rintro rfl
      rw [here] at none
      cases none
    exact (Function.update_of_ne apart _ _).trans (kept.outsiders j none)
  · by_cases same : j = i
    · subst same
      cases here.symm.trans there
      change Standing version command (Function.update s.peers j peer j) _ _
      rw [Function.update_self]
      exact standing
    · change Standing version other (Function.update s.peers i peer j) _ _
      rw [Function.update_of_ne same]
      exact kept.standing j other there

theorem command_of (i : Nat) (some : s.peers i ≠ .make) : ∃ command, requests[i]? = Option.some command := by
  cases here : requests[i]? with
  | none => exact absurd (kept.outsiders i here) some
  | some command => exact ⟨command,rfl⟩

theorem refuse_kept (i : Nat) (acted : act version requests s (.refuse i) = some after) :
    Kept version requests after := by
  simp only [act] at acted
  split at acted
  next fine =>
    cases acted
    obtain ⟨bound,at_start⟩ := fine
    have here := List.getElem?_eq_getElem bound
    obtain ⟨none,out,fresh⟩ := (kept.standing i _ here).connecting at_start
    refine setPeer_kept version requests s kept i _ _ here ?_
    rw [none]
    exact .outside rfl (by simp) out fresh
  next => cases acted

theorem timeout_kept (i : Nat) (acted : act version requests s (.timeout i) = some after) :
    Kept version requests after := by
  simp only [act] at acted
  split at acted
  next fine =>
    cases acted
    have here := List.getElem?_eq_getElem fine.1
    exact setPeer_kept version requests s kept i _ _ here (kept.standing i _ here).timeout
  next => cases acted

theorem carry_kept (i : Nat) (acted : act version requests s (.carry i) = some after) :
    Kept version requests after := by
  simp only [act] at acted
  split at acted
  next => cases acted
  next byte rest there =>
    cases acted
    obtain ⟨command,here⟩ := command_of version requests s kept i (by intro none; rw [none] at there; cases there)
    exact setPeer_kept version requests s kept i _ _ here ((kept.standing i _ here).carry byte rest there)

theorem carryBack_kept (i : Nat) (acted : act version requests s (.carryBack i) = some after) :
    Kept version requests after := by
  simp only [act] at acted
  split at acted
  next => cases acted
  next byte rest there =>
    cases acted
    obtain ⟨command,here⟩ := command_of version requests s kept i (by intro none; rw [none] at there; cases there)
    exact setPeer_kept version requests s kept i _ _ here ((kept.standing i _ here).carryBack byte rest there)

theorem hear_kept (word : IsWord version) (i : Nat) (acted : act version requests s (.hear i) = some after) :
    Kept version requests after := by
  obtain ⟨peer,heard,rfl⟩ := Option.map_eq_some_iff.mp acted
  obtain ⟨command,here⟩ := command_of version requests s kept i (by intro none; rw [none] at heard; cases heard)
  exact setPeer_kept version requests s kept i _ _ here ((kept.standing i _ here).hear word heard)

theorem accept_kept (acted : act version requests s .accept = some after) : Kept version requests after := by
  simp only [act] at acted
  split at acted
  next i rest free waiting =>
    cases acted
    have same : pending {s with serving := some i, backlog := rest} = s.pending := by
      simp [pending,free,waiting]
    refine ⟨by rw [same]; exact kept.distinct,by rw [same]; exact kept.known,kept.outsiders,?_,kept.entries,kept.numbers⟩
    rw [same]
    exact kept.standing
  next => cases acted

theorem connect_kept (i : Nat) (acted : act version requests s (.connect i) = some after) :
    Kept version requests after := by
  simp only [act] at acted
  split at acted
  next command here =>
    split at acted
    next at_start =>
      cases acted
      obtain ⟨_,out,fresh⟩ := (kept.standing i command here).connecting at_start
      have longer : pending {s.setPeer i (.connected command) with backlog := s.backlog ++ [i]} = s.pending ++ [i] :=
        (List.append_assoc _ _ _).symm
      refine ⟨?_,?_,fun j none => ?_,fun j other there => ?_,kept.entries,kept.numbers⟩
      · rw [longer,← List.append_assoc]
        refine List.nodup_append.mpr ⟨kept.distinct,List.nodup_singleton i,?_⟩
        rintro j member _ last rfl
        rw [List.mem_singleton.mp last] at member
        exact (List.mem_append.mp member).elim fresh out
      · rw [longer,← List.append_assoc]
        intro j member
        rcases List.mem_append.mp member with earlier | last
        · exact kept.known j earlier
        · rw [List.mem_singleton.mp last]
          exact (List.getElem?_eq_some_iff.mp here).1
      · have apart : j ≠ i := by
          rintro rfl
          rw [here] at none
          cases none
        exact (Function.update_of_ne apart _ _).trans (kept.outsiders j none)
      · rw [longer]
        by_cases same : j = i
        · subst same
          cases here.symm.trans there
          change Standing version command (Function.update s.peers j _ j) _ _
          rw [Function.update_self]
          exact .queued rfl ⟨rfl,rfl⟩ rfl (.inr rfl) (List.mem_append_right _ List.mem_cons_self) fresh
        · change Standing version other (Function.update s.peers i _ j) _ _
          rw [Function.update_of_ne same]
          refine Standing.congr _ _ _ _ _ _ _ (kept.standing j other there) ?_ Iff.rfl
          simp [same]
    next => cases acted
  next => cases acted

theorem served_whole (i : Nat) (command : ClientCommand) (controllerNumber : Nat) (here : requests[i]? = some command)
    (waiting : i ∈ s.pending) (enough : waits (s.peers i).arrived = false ∨ (s.peers i).ended = true) :
    handleClient version controllerNumber (s.peers i).arrived =
        handleClient version controllerNumber command.text ∧
      Standing version command
        {s.peers i with
          replying := (handleClient version controllerNumber command.text).reply
          closed := true} False True := by
  cases kept.standing i command here with
  | queued sent silent opened at_queue waiting fresh =>
    have answered (full : command.isBlank = false) : Standing version command
        {s.peers i with replying := (handleClient version controllerNumber command.text).reply, closed := true}
        False True := by
      have told := (command.text_served version controllerNumber).1
      rw [full,if_neg Bool.false_ne_true] at told
      rcases at_queue with at_end | at_first
      · exact .gone at_end rfl not_false trivial
      · by_cases asks : command = .version
        · subst asks
          refine .version at_first rfl ?_ full not_false trivial
          rw [silent.2,told,ClientCommand.answer,List.nil_append,List.append_assoc]
          rfl
        · have here : (s.peers i).pc = .reply := by rw [at_first,Peer.connected,if_neg asks]
          have plain : command.answer version = msgAck ++ [10] := by cases command <;> first | rfl | exact absurd rfl asks
          have acks : readWord (some (msgAck ++ [10])) = (msgAck,some [10]) := by decide
          refine .reply [10] here rfl ?_ full not_false trivial
          rw [silent.2,told,plain]
          exact acks
    rcases enough with enough | ended
    · obtain ⟨same,full⟩ := handleClient_append version controllerNumber _ (s.peers i).sending enough
      rw [sent] at same full
      exact ⟨same.symm,answered (command.text_waits.symm.trans full)⟩
    · simp only [Peer.ended,Bool.and_eq_true,List.isEmpty_iff] at ended
      rw [ended.2,List.append_nil] at sent
      have gone : (s.peers i).pc = .timedOut := by
        rcases at_queue with at_end | at_first
        · exact at_end
        · rw [at_first] at ended
          rcases connected_pc command with first | first <;> rw [first] at ended <;> cases ended.1
      exact ⟨by rw [sent],.gone gone rfl not_false trivial⟩
  | outside empty at_start out fresh => exact absurd waiting out
  | gone at_end closed out done => exact absurd waiting out
  | version at_version closed told full out done => exact absurd waiting out
  | reply rest at_reply closed told full out done => exact absurd waiting out
  | acknowledged at_end full closed out done => exact absurd waiting out

theorem serve_kept (acted : act version requests s .serve = some after) : Kept version requests after := by
  simp only [act] at acted
  split at acted
  next i here =>
    split at acted
    next enough =>
      cases acted
      have waiting : i ∈ s.pending := by simp [pending,here]
      have bound := kept.known i (List.mem_append_right _ waiting)
      have asked := List.getElem?_eq_getElem bound
      obtain ⟨same,standing⟩ := served_whole version requests s kept i _ s.controllerNumber asked waiting enough
      have first : s.pending = i :: s.backlog := by simp [pending,here]
      have listed : s.served ++ [i] ++ s.backlog = s.served ++ s.pending := by simp [first]
      have unique := kept.distinct
      rw [← listed] at unique
      have fresh : i ∉ s.served := fun member =>
        (List.nodup_append.mp kept.distinct).2.2 i member i waiting rfl
      have left : i ∉ s.backlog := by
        have parts := (List.nodup_append.mp kept.distinct).2.1
        rw [first] at parts
        exact (List.nodup_cons.mp parts).1
      rw [same]
      refine ⟨?_,?_,fun j none => ?_,fun j other there => ?_,fun entry member command there => ?_,?_⟩
      · rw [finish_served,finish_pending]
        exact unique
      · rw [finish_served,finish_pending,listed]
        exact kept.known
      · have apart : j ≠ i := by
          rintro rfl
          rw [asked] at none
          cases none
        exact (Function.update_of_ne apart _ _).trans (kept.outsiders j none)
      · rw [finish_served,finish_pending]
        by_cases own : j = i
        · subst own
          cases asked.symm.trans there
          change Standing version _ (Function.update s.peers j _ j) _ _
          rw [Function.update_self]
          exact standing.congr _ _ _ _ _ _ _ (iff_of_false left not_false) (iff_of_true (by simp) trivial)
        · change Standing version other (Function.update s.peers i _ j) _ _
          rw [Function.update_of_ne own]
          exact (kept.standing j other there).congr _ _ _ _ _ _ _ (by simp [first,own]) (by simp [own])
      · rcases List.mem_append.mp member with earlier | last
        · exact kept.entries entry earlier command there
        · cases List.mem_singleton.mp last
          cases asked.symm.trans there
          rfl
      · have number := (requests[i].text_served version s.controllerNumber).2
        have all := kept.numbers
        change ((s.log ++ [_]).filter (starts requests)).map Entry.controllerNumber = List.range
          (handleClient version s.controllerNumber requests[i].text).controllerNumber
        rw [List.filter_append,List.map_append,all,number,List.filter_singleton,starts,asked,Option.any_some]
        cases requests[i].isStart with
        | true => exact List.range_succ.symm
        | false => exact List.append_nil _
    next => cases acted
  next => cases acted

theorem step_kept (word : IsWord version) (step : Step version requests s after) : Kept version requests after := by
  obtain ⟨action,_,acted⟩ := step
  cases action with
  | connect i => exact connect_kept version requests s after kept i acted
  | refuse i => exact refuse_kept version requests s after kept i acted
  | timeout i => exact timeout_kept version requests s after kept i acted
  | carry i => exact carry_kept version requests s after kept i acted
  | carryBack i => exact carryBack_kept version requests s after kept i acted
  | hear i => exact hear_kept version requests s after kept word i acted
  | accept => exact accept_kept version requests s after kept acted
  | serve => exact serve_kept version requests s after kept acted

end

section
variable (version : Bytes) (requests : List ClientCommand) (s after : Exchange)

theorem run_kept (word : IsWord version) (run : ReflTransGen (Step version requests) make s) :
    Kept version requests s :=
  run_invariant run (make_kept version requests) fun before after kept =>
    step_kept version requests before after kept word

theorem step_line (step : Step version requests s after) : s.served ++ s.pending <+: after.served ++ after.pending := by
  obtain ⟨action,_,acted⟩ := step
  have peer (i : Nat) (peer : Peer) : s.served ++ s.pending <+: (s.setPeer i peer).served ++ (s.setPeer i peer).pending :=
    List.prefix_rfl
  cases action with
  | connect i =>
    simp only [act] at acted
    split at acted
    next =>
      split at acted
      next =>
        cases acted
        exact ⟨[i],by simp [pending,served,setPeer,List.append_assoc]⟩
      next => cases acted
    next => cases acted
  | refuse i =>
    simp only [act] at acted
    split at acted
    next => cases acted; exact peer i _
    next => cases acted
  | timeout i =>
    simp only [act] at acted
    split at acted
    next => cases acted; exact peer i _
    next => cases acted
  | carry i =>
    simp only [act] at acted
    split at acted
    next => cases acted
    next => cases acted; exact peer i _
  | carryBack i =>
    simp only [act] at acted
    split at acted
    next => cases acted
    next => cases acted; exact peer i _
  | hear i =>
    obtain ⟨heard,_,rfl⟩ := Option.map_eq_some_iff.mp acted
    exact peer i heard
  | accept =>
    simp only [act] at acted
    split at acted
    next i rest free waiting =>
      cases acted
      exact ⟨[],by simp [pending,served,free,waiting]⟩
    next => cases acted
  | serve =>
    simp only [act] at acted
    split at acted
    next i here =>
      split at acted
      next =>
        cases acted
        rw [finish_served,finish_pending]
        exact ⟨[],by simp [pending,here]⟩
      next => cases acted
    next => cases acted

theorem run_line (run : ReflTransGen (Step version requests) s after) :
    s.served ++ s.pending <+: after.served ++ after.pending := by
  induction run with
  | refl => exact List.prefix_rfl
  | tail _ step ih => exact ih.trans (step_line version requests _ _ step)

theorem logFile_injective : Function.Injective logFile := by
  intro m n same
  simp only [logFile,List.append_cancel_right_eq,List.append_cancel_left_eq] at same
  have read := congrArg digitsValue same
  rwa [digitsValue_decimal,digitsValue_decimal] at read

structure Exact : Prop where
  once : s.served.Nodup
  asked : ∀ entry ∈ s.log, ∃ command, requests[entry.client]? = some command ∧
    entry.commands = (handleClient version entry.controllerNumber command.text).commands
  logs : ((s.log.filter (starts requests)).map fun entry => logFile entry.controllerNumber).Nodup
  acknowledged : ∀ i, (s.peers i).pc = .acknowledged → i ∈ s.served ∧ ∀ command ∈ requests[i]?, command.isBlank = false
  wrong : ∀ i, (s.peers i).pc = .wrong → i ∉ s.served ∧ i ∉ s.pending

/-- Whatever the clients and the network do, the daemon serves the clients in the order of
their connections and each of them once, with exactly the commands its line asks for and a
log file of its own for each controller; a client that was acknowledged has been served, and
one that read anything else was never connected. -/
theorem served_once (word : IsWord version) (run : ReflTransGen (Step version requests) make s) :
    Exact version requests s ∧ ∀ later, ReflTransGen (Step version requests) s later →
      s.served ++ s.pending <+: later.served ++ later.pending := by
  have kept := run_kept version requests s word run
  refine ⟨⟨(List.nodup_append.mp kept.distinct).1,fun entry member => ?_,?_,fun i here => ?_,fun i here => ?_⟩,
    fun later => run_line version requests s later⟩
  · have listed : entry.client ∈ s.served ++ s.pending :=
      List.mem_append_left _ (List.mem_map_of_mem (f := Entry.client) member)
    have there := List.getElem?_eq_getElem (kept.known _ listed)
    exact ⟨_,there,kept.entries entry member _ there⟩
  · have numbers : ((List.range s.controllerNumber).map logFile).Nodup := List.nodup_range.map logFile_injective
    rw [← kept.numbers,List.map_map] at numbers
    exact numbers
  · obtain ⟨command,there⟩ := command_of version requests s kept i (by intro none; rw [none] at here; cases here)
    obtain ⟨done,full⟩ := (kept.standing i command there).answered here
    exact ⟨done,fun other same => by cases there.symm.trans same; exact full⟩
  · obtain ⟨command,there⟩ := command_of version requests s kept i (by intro none; rw [none] at here; cases here)
    exact ((kept.standing i command there).refused here).symm

end

/-- A start and a ping that has connected first but is slower. -/
theorem start_acknowledged : ∃ s, (s.peers 0).pc = .acknowledged ∧ s.pending = [] ∧
    Exact (ascii "0.10.0") [.start (ascii "m"),.ping] s := by
  have performed : (perform (act (ascii "0.10.0") [.start (ascii "m"),.ping]) (fun _ _ => True) make
      (.connect 1 :: .connect 0 :: .accept :: List.replicate 15 (.carry 0) ++ List.replicate 12 (.carry 1) ++
        [.serve,.accept,.serve] ++ List.replicate 11 (.carryBack 0) ++ [.hear 0])).any
      (fun s => (s.peers 0).pc = .acknowledged ∧ s.pending = []) = true := by
    decide +kernel
  obtain ⟨s,run,good⟩ := perform_run _ _ _ _ _ performed
  obtain ⟨acknowledged,none⟩ := of_decide_eq_true good
  exact ⟨s,acknowledged,none,(served_once _ _ s (by decide) run).1⟩

end Exchange
end Dhtperf.Service
