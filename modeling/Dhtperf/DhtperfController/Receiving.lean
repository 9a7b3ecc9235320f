import Dhtperf.Profile
import Dhtperf.Protocol
import Dhtperf.MasterWorkload

/-! The controller up to `start`: it waits for three messages in a fixed order, checks the
opcode in each header, and hands the four profile strings over. -/
namespace Dhtperf
open Library

namespace DhtperfController

def dhtTypes : List Bytes :=
  [ascii "dummy",ascii "kaddemo",ascii "openchord",ascii "owshellchord",ascii "owshellkad",
    ascii "owshellpastry",ascii "pastconsole"]

/-- `getDhtType`, `getProfile` and `waitForStartMessage`. -/
inductive Stage
  | dhtType
  | profile
  | start
  deriving DecidableEq

def Stage.opcode : Stage → OpcodeType
  | .dhtType => Opcode.dhtType
  | .profile => Opcode.profile
  | .start => Opcode.start

def Stage.index : Stage → Nat
  | .dhtType => 0
  | .profile => 1
  | .start => 2

inductive ReceiverFault
  | unexpectedOpcode
  | decode (error : DecodeError)
  | unknownType
  | profile (fault : Fault)
  deriving DecidableEq

/-- Where the controller stands: in one of the two reads of `getNextMessage`, or past them. -/
inductive ReceiverPc
  | header (stage : Stage)
  | body (stage : Stage) (header : MessageHeader)
  | started
  | exited (fault : ReceiverFault)
  deriving DecidableEq

/-- What the three messages set, and the history: the number of bytes read, the messages
got and the calls of `setProfile`. -/
structure Receiver where
  pc : ReceiverPc
  dhtType : Bytes
  duration : TimeUnit
  entryPointHost : Bytes
  entryPointPortOffset : UInt16
  selfPortOffset : UInt16
  consumed : Nat
  got : List Message
  handed : List (DhtOperation × Bytes)

namespace Receiver

def make : Receiver := ⟨.header .dhtType,[],0,[],0,0,0,[],[]⟩

variable [heap : StdHeap]

/-- The calls of `setProfile` up to the first that fails. -/
def setProfiles (accepts : Distributions) :
    List (DhtOperation × Bytes) → Draws → List (DhtOperation × Bytes) × Option Fault
  | [],_ => ([],none)
  | (op,profile) :: rest,draws =>
    match Profile.makeProfile accepts op profile draws with
    | .error fault => ([(op,profile)],some fault)
    | .ok (_,draws) =>
      let (handed,failed) := setProfiles accepts rest draws
      ((op,profile) :: handed,failed)

def handle (accepts : Distributions) (draws : Draws) (r : Receiver) : Stage → Message → Receiver
  | .dhtType,.dhtType type =>
    if type ∈ dhtTypes then {r with dhtType := type, pc := .header .profile}
    else {r with pc := .exited .unknownType}
  | .profile,.profile join leave put get =>
    let (handed,failed) := setProfiles accepts [(.join,join),(.leave,leave),(.put,put),(.get,get)] draws
    {r with
      handed := r.handed ++ handed
      pc := match failed with
        | none => .header .start
        | some fault => .exited (.profile fault)}
  | .start,.start duration entryPointHost entryPointPortOffset selfPortOffset =>
    {r with
      duration := duration
      entryPointHost := entryPointHost
      entryPointPortOffset := entryPointPortOffset
      selfPortOffset := selfPortOffset
      pc := .started}
  -- `fromBits` makes the message that the checked opcode stands for.
  | _,_ => r

/-- One read of `getNextMessage`, once enough bytes of the input have arrived. Reads from a
reliable connection do not fail. -/
def advance (order : ByteOrder) (accepts : Distributions) (draws : Draws) (input : Bytes) (r : Receiver) :
    Option Receiver :=
  match r.pc with
  | .header stage =>
    if r.consumed + headerSize ≤ input.length then
      let header := MessageHeader.read order ((input.drop r.consumed).take headerSize)
      some {r with
        consumed := r.consumed + headerSize
        pc := if header.opcode = stage.opcode then .body stage header else .exited .unexpectedOpcode}
    else none
  | .body stage header =>
    if r.consumed + header.bodySize.toNat ≤ input.length then
      match Message.fromBits order header ((input.drop r.consumed).take header.bodySize.toNat) with
      | .error error =>
        some {r with consumed := r.consumed + header.bodySize.toNat, pc := .exited (.decode error)}
      | .ok message =>
        some (handle accepts draws
          {r with consumed := r.consumed + header.bodySize.toNat, got := r.got ++ [message]} stage message)
    else none
  | .started => none
  | .exited _ => none

/-! ### Following what is sent -/

def calls (p : MasterWorkloadProfile) : List (DhtOperation × Bytes) :=
  [(.join,p.joinProfile),(.leave,p.leaveProfile),(.put,p.putProfile),(.get,p.getProfile)]

/-- The controller stands where the messages it has got have brought it. -/
def Placed (order : ByteOrder) (sent : List Message) (r : Receiver) : Prop :=
  match r.pc with
  | .header stage => r.got.length = stage.index ∧ r.consumed = (r.got.flatMap (Message.bits order)).length
  | .body stage header => r.got.length = stage.index ∧ ∃ message, r.got ++ [message] <+: sent ∧
      header = message.header order ∧ r.consumed = (r.got.flatMap (Message.bits order)).length + headerSize
  | .started => r.got.length = 3
  | .exited fault => fault ≠ .unexpectedOpcode

def Handed (p : MasterWorkloadProfile) (r : Receiver) : Prop :=
  match r.pc with
  | .header stage => r.handed = if stage = .start then calls p else []
  | .body stage _ => r.handed = if stage = .start then calls p else []
  | .started => r.handed = calls p
  | .exited _ => r.handed <+: calls p

structure Follows (order : ByteOrder) (p : MasterWorkloadProfile) (sent : List Message) (r : Receiver) : Prop where
  known : r.got <+: sent
  placed : Placed order sent r
  handed : Handed p r

theorem setProfiles_part (accepts : Distributions) (profiles : List (DhtOperation × Bytes)) (draws : Draws) :
    (setProfiles accepts profiles draws).1 <+: profiles ∧
      ((setProfiles accepts profiles draws).2 = none → (setProfiles accepts profiles draws).1 = profiles) := by
  induction profiles generalizing draws with
  | nil => exact ⟨List.prefix_rfl,fun _ => rfl⟩
  | cons call rest ih =>
    unfold setProfiles
    split
    next => exact ⟨⟨rest,rfl⟩,nofun⟩
    next draws' _ =>
      obtain ⟨part,whole⟩ := ih draws'
      exact ⟨List.cons_prefix_cons.mpr ⟨rfl,part⟩,fun fine => congrArg (call :: ·) (whole fine)⟩

omit heap in
theorem slice_arrived (input whole : Bytes) (offset size : Nat) (arrived : input <+: whole)
    (enough : offset + size ≤ input.length) : (input.drop offset).take size = (whole.drop offset).take size := by
  obtain ⟨rest,rfl⟩ := arrived
  rw [List.drop_append_of_le_length (by omega),List.take_append_of_le_length (by rw [List.length_drop]; omega)]

omit heap in
theorem header_arrived (order : ByteOrder) (sent got : List Message) (input : Bytes) (known : got <+: sent)
    (arrived : input <+: sent.flatMap (Message.bits order))
    (enough : (got.flatMap (Message.bits order)).length + headerSize ≤ input.length) :
    ∃ message, got ++ [message] <+: sent ∧ MessageHeader.read order
      ((input.drop (got.flatMap (Message.bits order)).length).take headerSize) = message.header order := by
  obtain ⟨others,rfl⟩ := known
  cases others with
  | nil =>
    have less := arrived.length_le
    rw [List.append_nil] at less
    simp only [headerSize] at enough
    omega
  | cons message others =>
    refine ⟨message,⟨others,by simp⟩,?_⟩
    rw [slice_arrived input _ _ _ arrived enough,List.flatMap_append,List.drop_left,List.flatMap_cons,
      Message.bits,List.append_assoc,List.take_left' (MessageHeader.write_length order _),
      MessageHeader.read_write]

omit heap in
theorem body_arrived (order : ByteOrder) (sent got : List Message) (message : Message) (input : Bytes)
    (next : got ++ [message] <+: sent) (fits : (message.body order).length < 2^32)
    (arrived : input <+: sent.flatMap (Message.bits order))
    (enough : (got.flatMap (Message.bits order)).length + headerSize + (message.header order).bodySize.toNat ≤
      input.length) :
    (input.drop ((got.flatMap (Message.bits order)).length + headerSize)).take
      (message.header order).bodySize.toNat = message.body order := by
  obtain ⟨others,rfl⟩ := next
  rw [slice_arrived input _ _ _ arrived enough,Message.header_size order message fits,List.append_assoc,
    List.flatMap_append,← List.drop_drop,List.drop_left,List.singleton_append,List.flatMap_cons,Message.bits,
    List.append_assoc,List.drop_left' (MessageHeader.write_length order _)]
  exact List.take_left

omit heap in
theorem staged (sent got : List Message) (message : Message) (type : Bytes) (p : MasterWorkloadProfile)
    (duration : TimeUnit) (host : Bytes) (entry self : UInt16) (stage : Stage)
    (expected : sent <+: [.dhtType type,.profile p.joinProfile p.leaveProfile p.putProfile p.getProfile,
      .start duration host entry self])
    (place : got.length = stage.index) (next : got ++ [message] <+: sent) :
    message = match stage with
      | .dhtType => .dhtType type
      | .profile => .profile p.joinProfile p.leaveProfile p.putProfile p.getProfile
      | .start => .start duration host entry self := by
  have here := (next.trans expected).getElem (i := got.length) (by simp)
  rw [List.getElem_concat_length (by simp)] at here
  cases stage <;> simp only [Stage.index] at place <;> simp [here,place]

theorem handle_follows (order : ByteOrder) (accepts : Distributions) (draws : Draws) (sent : List Message)
    (p : MasterWorkloadProfile) (type : Bytes) (duration : TimeUnit) (host : Bytes) (entry self : UInt16)
    (r : Receiver) (got : List Message) (stage : Stage) (message : Message) (place : got.length = stage.index)
    (next : got ++ [message] <+: sent)
    (expected : message = match stage with
      | .dhtType => .dhtType type
      | .profile => .profile p.joinProfile p.leaveProfile p.putProfile p.getProfile
      | .start => .start duration host entry self)
    (told : r.got = got ++ [message]) (read : r.consumed = ((got ++ [message]).flatMap (Message.bits order)).length)
    (handed : r.handed = if stage = .start then calls p else []) :
    Follows order p sent (handle accepts draws r stage message) := by
  have count : (got ++ [message]).length = stage.index + 1 := by rw [List.length_append,place]; rfl
  cases stage with
  | dhtType =>
    subst expected
    simp only [handle]
    split
    · exact ⟨told ▸ next,⟨by rw [told]; exact count,by rw [told]; exact read⟩,handed⟩
    · exact ⟨told ▸ next,nofun,handed ▸ List.nil_prefix⟩
  | profile =>
    subst expected
    obtain ⟨part,whole⟩ := setProfiles_part accepts (calls p) draws
    simp only [handle]
    have none : r.handed = [] := handed
    change Follows order p sent {r with
      handed := r.handed ++ (setProfiles accepts (calls p) draws).1
      pc := match (setProfiles accepts (calls p) draws).2 with
        | .none => .header .start
        | some fault => .exited (.profile fault)}
    rw [none,List.nil_append]
    cases failed : (setProfiles accepts (calls p) draws).2 with
    | none => exact ⟨told ▸ next,⟨by rw [told]; exact count,by rw [told]; exact read⟩,whole failed⟩
    | some fault => exact ⟨told ▸ next,nofun,part⟩
  | start =>
    subst expected
    exact ⟨told ▸ next,by rw [Placed]; exact told ▸ count,handed⟩

section Advance
variable (order : ByteOrder) (accepts : Distributions) (draws : Draws) (sent : List Message)
  (p : MasterWorkloadProfile) (type : Bytes) (duration : TimeUnit) (host : Bytes) (entry self : UInt16)

theorem advance_header (expected : sent <+: [.dhtType type,.profile p.joinProfile p.leaveProfile p.putProfile p.getProfile,
      .start duration host entry self]) (input : Bytes) (arrived : input <+: sent.flatMap (Message.bits order))
    (r after : Receiver) (ok : r.advance order accepts draws input = some after) (follows : Follows order p sent r)
    (stage : Stage) (pc : r.pc = .header stage) : Follows order p sent after := by
  obtain ⟨known,placed,handed⟩ := follows
  unfold advance at ok
  unfold Placed at placed
  unfold Handed at handed
  simp only [pc] at ok placed handed
  split at ok
  next enough =>
    rw [placed.2] at enough
    obtain ⟨message,next,header⟩ := header_arrived order sent r.got input known arrived enough
    have same := staged sent r.got message type p duration host entry self stage expected placed.1 next
    cases ok
    rw [placed.2,header]
    have opcode : (message.header order).opcode = stage.opcode := by
      rw [same]
      cases stage <;> rfl
    rw [if_pos opcode]
    exact ⟨known,⟨placed.1,message,next,rfl,rfl⟩,handed⟩
  next => cases ok

theorem advance_body (expected : sent <+: [.dhtType type,.profile p.joinProfile p.leaveProfile p.putProfile p.getProfile,
      .start duration host entry self]) (fits : ∀ m ∈ sent, (m.body order).length < 2^32) (input : Bytes)
    (arrived : input <+: sent.flatMap (Message.bits order)) (r after : Receiver)
    (ok : r.advance order accepts draws input = some after) (follows : Follows order p sent r)
    (stage : Stage) (header : MessageHeader) (pc : r.pc = .body stage header) : Follows order p sent after := by
  obtain ⟨known,placed,handed⟩ := follows
  unfold advance at ok
  unfold Placed at placed
  unfold Handed at handed
  simp only [pc] at ok placed handed
  obtain ⟨place,message,next,rfl,consumed⟩ := placed
  have member : message ∈ sent := next.subset (List.mem_append_right r.got (List.mem_singleton.mpr rfl))
  have same := staged sent r.got message type p duration host entry self stage expected place next
  have plain : message.Plain := by
    rw [same]
    cases stage <;> trivial
  split at ok
  next enough =>
    rw [consumed] at enough
    rw [consumed,body_arrived order sent r.got message input next (fits message member) arrived enough,
      Message.fromBits_body order message _ (fits message member) plain fun _ => rfl] at ok
    by_cases sized : message.Sized
    · rw [if_pos sized] at ok
      cases ok
      refine handle_follows order accepts draws sent p type duration host entry self _ r.got stage message place
        next same rfl ?_ handed
      rw [List.flatMap_append,List.flatMap_singleton,List.length_append,Message.bits,List.length_append,
        MessageHeader.write_length,Message.header_size order message (fits message member)]
      exact Nat.add_assoc _ _ _
    · rw [if_neg sized] at ok
      cases ok
      refine ⟨known,by simp [Placed],?_⟩
      simp only [Handed]
      rw [handed]
      split
      · exact List.prefix_rfl
      · exact List.nil_prefix
  next => cases ok

end Advance

/-- A controller that reads what the master has sent never finds an unexpected opcode. -/
theorem advance_follows (order : ByteOrder) (accepts : Distributions) (draws : Draws) (sent : List Message)
    (p : MasterWorkloadProfile) (type : Bytes) (duration : TimeUnit) (host : Bytes) (entry self : UInt16)
    (expected : sent <+: [.dhtType type,.profile p.joinProfile p.leaveProfile p.putProfile p.getProfile,
      .start duration host entry self])
    (fits : ∀ m ∈ sent, (m.body order).length < 2^32) (input : Bytes)
    (arrived : input <+: sent.flatMap (Message.bits order)) (r after : Receiver)
    (ok : r.advance order accepts draws input = some after) (follows : Follows order p sent r) :
    Follows order p sent after := by
  cases pc : r.pc with
  | header stage =>
    exact advance_header order accepts draws sent p type duration host entry self expected input arrived r after ok
      follows stage pc
  | body stage header =>
    exact advance_body order accepts draws sent p type duration host entry self expected fits input arrived r after ok
      follows stage header pc
  | started =>
    simp only [advance,pc] at ok
    cases ok
  | exited fault =>
    simp only [advance,pc] at ok
    cases ok

omit heap in
theorem Follows.more (order : ByteOrder) (p : MasterWorkloadProfile) (sent later : List Message) (r : Receiver)
    (grown : sent <+: later) (follows : Follows order p sent r) : Follows order p later r := by
  refine ⟨follows.known.trans grown,?_,follows.handed⟩
  have placed := follows.placed
  unfold Placed at placed ⊢
  cases pc : r.pc with
  | body stage header =>
    rw [pc] at placed
    obtain ⟨place,message,next,shape⟩ := placed
    exact ⟨place,message,next.trans grown,shape⟩
  | _ =>
    rw [pc] at placed
    exact placed

end Receiver
end DhtperfController
end Dhtperf
