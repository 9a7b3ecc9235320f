import Dhtperf.DhtperfController.Receiving
import Dhtperf.Protocol.Decoding

/-! `getNextMessage` on a connection that may end anywhere. The error of its second read is
not looked at, so a body that was cut off is decoded with zeros in the place of what is missing. -/
namespace Dhtperf
open Library

namespace DhtperfController

/-- What the connection still brings, and whether it ends or fails after that. -/
structure Incoming where
  bytes : Bytes
  ended : Bool
  deriving DecidableEq

/-- `read` with `transfer_all`: what was read, whether it failed, and what comes next. It
waits as long as the connection is open and bytes are missing. -/
def Incoming.read (incoming : Incoming) (size : Nat) : Option (Bytes × Bool × Incoming) :=
  if size ≤ incoming.bytes.length then
    some (incoming.bytes.take size,false,{incoming with bytes := incoming.bytes.drop size})
  else if incoming.ended then some (incoming.bytes,true,{incoming with bytes := []})
  else none

inductive Exit
  | socket
  | unexpectedOpcode
  | decode (error : DecodeError)
  deriving DecidableEq

def decoded (order : ByteOrder) (header : MessageHeader) (body : Bytes) : Except Exit Message :=
  (Message.fromBits order header body).mapError .decode

def filled (size : Nat) (received : Bytes) : Bytes := received ++ List.replicate (size - received.length) 0

/-- The body of some size. The error of its read is set and not looked at. -/
def readBody (size : UInt32) (incoming : Incoming) : Option (Bytes × Incoming) :=
  if size > 0 then do
    let (received,_,incoming) ← incoming.read size.toNat
    return (filled size.toNat received,incoming)
  else return (filled size.toNat [],incoming)

def getNextMessage (order : ByteOrder) (opcode : OpcodeType) (incoming : Incoming) :
    Option (Except Exit Message × Incoming) := do
  let (head,error,incoming) ← incoming.read headerSize
  if error then return (.error .socket,incoming)
  let header := MessageHeader.read order head
  if header.opcode ≠ opcode then return (.error .unexpectedOpcode,incoming)
  let (body,incoming) ← readBody header.bodySize incoming
  return (decoded order header body,incoming)

namespace Incoming

def header (order : ByteOrder) (incoming : Incoming) : MessageHeader :=
  MessageHeader.read order (incoming.bytes.take headerSize)

def body (order : ByteOrder) (incoming : Incoming) : Bytes :=
  (incoming.bytes.drop headerSize).take (incoming.header order).bodySize.toNat

def Complete (order : ByteOrder) (incoming : Incoming) : Prop :=
  headerSize ≤ incoming.bytes.length ∧
    headerSize + (incoming.header order).bodySize.toNat ≤ incoming.bytes.length

/-- The connection ends inside the body of a message that the controller waits for. -/
def CutOff (order : ByteOrder) (opcode : OpcodeType) (incoming : Incoming) : Prop :=
  incoming.ended ∧ headerSize ≤ incoming.bytes.length ∧ (incoming.header order).opcode = opcode ∧
    incoming.bytes.length < headerSize + (incoming.header order).bodySize.toNat

instance (order : ByteOrder) (incoming : Incoming) : Decidable (incoming.Complete order) :=
  inferInstanceAs (Decidable (_ ∧ _))

instance (order : ByteOrder) (opcode : OpcodeType) (incoming : Incoming) : Decidable (incoming.CutOff order opcode) :=
  inferInstanceAs (Decidable (_ ∧ _))

theorem read_all (incoming : Incoming) (size : Nat) (enough : size ≤ incoming.bytes.length) :
    incoming.read size = some (incoming.bytes.take size,false,⟨incoming.bytes.drop size,incoming.ended⟩) :=
  if_pos enough

theorem read_less (incoming : Incoming) (size : Nat) (missing : incoming.bytes.length < size) :
    incoming.read size = if incoming.ended then some (incoming.bytes,true,⟨[],incoming.ended⟩) else none :=
  if_neg (not_le.mpr missing)

end Incoming

theorem decoded_ok_iff (order : ByteOrder) (header : MessageHeader) (body : Bytes) (message : Message) :
    decoded order header body = .ok message ↔ Message.fromBits order header body = .ok message := by
  unfold decoded
  cases Message.fromBits order header body with
  | ok other => exact ⟨fun same => by cases same; rfl,fun same => by cases same; rfl⟩
  | error error => exact ⟨nofun,nofun⟩

theorem filled_length (size : Nat) (received : Bytes) (fits : received.length ≤ size) :
    (filled size received).length = size := by
  rw [filled,List.length_append,List.length_replicate]
  omega

theorem filled_all (size : Nat) (received : Bytes) (whole : received.length = size) : filled size received = received := by
  rw [filled,whole,Nat.sub_self]
  exact List.append_nil received

/-! ### The three places where the input may end -/

theorem getNextMessage_short (order : ByteOrder) (opcode : OpcodeType) (incoming : Incoming)
    (short : incoming.bytes.length < headerSize) :
    getNextMessage order opcode incoming = if incoming.ended then some (.error .socket,⟨[],incoming.ended⟩) else none := by
  unfold getNextMessage
  rw [incoming.read_less headerSize short]
  cases incoming.ended <;> rfl

theorem getNextMessage_unexpected (order : ByteOrder) (opcode : OpcodeType) (incoming : Incoming)
    (enough : headerSize ≤ incoming.bytes.length) (other : (incoming.header order).opcode ≠ opcode) :
    getNextMessage order opcode incoming =
      some (.error .unexpectedOpcode,⟨incoming.bytes.drop headerSize,incoming.ended⟩) := by
  unfold getNextMessage
  rw [incoming.read_all headerSize enough]
  exact if_pos other

theorem readBody_eq (size : UInt32) (incoming : Incoming) :
    readBody size incoming =
      if incoming.ended ∨ size.toNat ≤ incoming.bytes.length then
        some (filled size.toNat (incoming.bytes.take size.toNat),⟨incoming.bytes.drop size.toNat,incoming.ended⟩)
      else none := by
  unfold readBody
  by_cases some : size > 0
  · rw [if_pos some]
    by_cases all : size.toNat ≤ incoming.bytes.length
    · rw [if_pos (Or.inr all),incoming.read_all _ all]
      rfl
    · have less := not_le.mp all
      rw [incoming.read_less _ less]
      by_cases ended : incoming.ended
      · rw [if_pos ended,if_pos (Or.inl ended),List.take_of_length_le less.le,List.drop_eq_nil_of_le less.le]
        rfl
      · rw [if_neg ended,if_neg (not_or.mpr ⟨ended,all⟩)]
        rfl
  · have none : size = 0 := UInt32.le_zero_iff.mp (UInt32.not_lt.mp some)
    rw [if_neg some,if_pos (Or.inr (none ▸ Nat.zero_le _)),none]
    rfl

theorem getNextMessage_body (order : ByteOrder) (opcode : OpcodeType) (incoming : Incoming)
    (enough : headerSize ≤ incoming.bytes.length) (expected : (incoming.header order).opcode = opcode) :
    getNextMessage order opcode incoming =
      if incoming.ended ∨ incoming.Complete order then
        some (decoded order (incoming.header order)
            (filled (incoming.header order).bodySize.toNat (incoming.body order)),
          ⟨incoming.bytes.drop (headerSize + (incoming.header order).bodySize.toNat),incoming.ended⟩)
      else none := by
  unfold getNextMessage
  rw [incoming.read_all headerSize enough]
  change (if (incoming.header order).opcode ≠ opcode then _ else
    readBody (incoming.header order).bodySize _ >>= fun read => _) = _
  rw [if_neg (not_not.mpr expected),readBody_eq]
  have whole : incoming.Complete order ↔
      (incoming.header order).bodySize.toNat ≤ (incoming.bytes.drop headerSize).length := by
    rw [Incoming.Complete,List.length_drop]
    omega
  simp only [whole,List.drop_drop,Incoming.body]
  split <;> rfl

/-- On what the open connection still brings, `getNextMessage` is two steps of `advance`. -/
theorem getNextMessage_advance [StdHeap] (order : ByteOrder) (accepts : Distributions) (draws : Draws)
    (r : Receiver) (stage : Stage) (input : Bytes) (message : Message) (rest : Incoming)
    (waiting : r.pc = .header stage)
    (got : getNextMessage order stage.opcode ⟨input.drop r.consumed,false⟩ = some (.ok message,rest)) :
    ∃ header between, between = {r with consumed := r.consumed + headerSize, pc := .body stage header} ∧
      r.advance order accepts draws input = some between ∧
      between.advance order accepts draws input = some (Receiver.handle accepts draws
        {between with consumed := between.consumed + header.bodySize.toNat, got := r.got ++ [message]}
        stage message) ∧
      rest.bytes = input.drop (between.consumed + header.bodySize.toNat) := by
  let incoming : Incoming := ⟨input.drop r.consumed,false⟩
  by_cases enough : headerSize ≤ incoming.bytes.length
  · by_cases expected : (incoming.header order).opcode = stage.opcode
    · rw [getNextMessage_body order stage.opcode incoming enough expected] at got
      split at got
      next read =>
        have complete : incoming.Complete order := read.resolve_left nofun
        obtain ⟨built,rfl⟩ := Prod.mk.inj (Option.some.inj got)
        have arrived := complete.2
        have dropped : incoming.bytes.length = input.length - r.consumed := List.length_drop
        have positive : 0 < headerSize := by decide
        refine ⟨incoming.header order,_,rfl,?_,?_,?_⟩
        · rw [Receiver.advance,waiting]
          simp only
          rw [if_pos (by omega)]
          exact congrArg some (if_pos expected ▸ rfl)
        · have length : (incoming.body order).length = (incoming.header order).bodySize.toNat :=
            List.length_take_of_le (by rw [List.length_drop]; omega)
          have same : incoming.body order =
              (input.drop (r.consumed + headerSize)).take (incoming.header order).bodySize.toNat := by
            rw [Incoming.body,List.drop_drop]
          have read : Message.fromBits order (incoming.header order)
              ((input.drop (r.consumed + headerSize)).take (incoming.header order).bodySize.toNat) = .ok message := by
            rw [filled_all _ _ length,same] at built
            exact (decoded_ok_iff order _ _ message).mp built
          unfold Receiver.advance
          simp only
          rw [if_pos (by omega),read]
        · rw [List.drop_drop,Nat.add_assoc]
      next => cases got
    · rw [getNextMessage_unexpected order stage.opcode incoming enough expected] at got
      cases got
  · rw [getNextMessage_short order stage.opcode incoming (not_le.mp enough)] at got
    cases got

theorem getNextMessage_bits (order : ByteOrder) (message : Message) (later : Bytes) (ended : Bool)
    (fits : (message.body order).length < 2^32) (plain : message.Plain) (sized : message.Sized) :
    getNextMessage order message.opcode ⟨message.bits order ++ later,ended⟩ = some (.ok message,⟨later,ended⟩) := by
  let incoming : Incoming := ⟨message.bits order ++ later,ended⟩
  have head : ((message.header order).write order).length = headerSize := MessageHeader.write_length order _
  have size := Message.header_size order message fits
  have bytes : incoming.bytes = (message.header order).write order ++ (message.body order ++ later) :=
    List.append_assoc _ _ _
  have header : incoming.header order = message.header order := by
    rw [Incoming.header,bytes,List.take_left' head,MessageHeader.read_write]
  have body : incoming.body order = message.body order := by
    rw [Incoming.body,header,size,bytes,List.drop_left' head]
    exact List.take_left
  have complete : incoming.Complete order := by
    rw [Incoming.Complete,header,size,bytes,List.length_append,List.length_append,head]
    omega
  have whole : (message.body order).length = (incoming.header order).bodySize.toNat := by rw [header,size]
  have built : decoded order (incoming.header order) (message.body order) = .ok message := by
    rw [decoded_ok_iff,header,Message.fromBits_body order message _ fits plain fun _ => rfl,if_pos sized]
  have rest : incoming.bytes.drop (headerSize + (message.body order).length) = later := by
    rw [bytes,← List.drop_drop,List.drop_left' head,List.drop_left]
  rw [getNextMessage_body order message.opcode incoming complete.1 (header ▸ rfl),if_pos (Or.inr complete),body,
    filled_all _ _ whole,built,← whole,rest]

/-! ### Messages that were cut off -/

/-- A message is returned when all of it has been read, and otherwise the controller exits:
on an error of the connection, on the opcode, or in a check of `fromBits`. To read behind
the end of the body is none of these. -/
def Guarded (order : ByteOrder) (opcode : OpcodeType) (incoming : Incoming) : Prop :=
  ∀ result rest, getNextMessage order opcode incoming = some (result,rest) → ¬incoming.Complete order →
    ∃ exit, exit ≠ .decode .outOfBounds ∧ result = .error exit

theorem decoded_exit_iff (order : ByteOrder) (header : MessageHeader) (body : Bytes)
    (whole : body.length = header.bodySize.toNat) :
    (∃ exit, exit ≠ .decode .outOfBounds ∧ decoded order header body = .error exit) ↔
      Message.Rejected order header body := by
  rw [← Message.fromBits_rejected_iff order header body whole]
  unfold decoded
  cases Message.fromBits order header body with
  | ok message => exact iff_of_false (fun ⟨_,_,same⟩ => nomatch same) fun ⟨_,_,same⟩ => nomatch same
  | error error =>
    constructor
    · rintro ⟨exit,inside,same⟩
      cases same
      exact ⟨error,fun outside => inside (congrArg Exit.decode outside),rfl⟩
    · rintro ⟨rejection,inside,same⟩
      cases same
      exact ⟨.decode error,fun outside => inside (Exit.decode.inj outside),rfl⟩

/-- The controller is guarded against a lost connection except inside a body: there it
takes zeros for the rest, and only what `fromBits` does not accept of that makes it exit. -/
theorem getNextMessage_guarded_iff (order : ByteOrder) (opcode : OpcodeType) (incoming : Incoming) :
    Guarded order opcode incoming ↔ (incoming.CutOff order opcode →
      Message.Rejected order (incoming.header order)
        (filled (incoming.header order).bodySize.toNat (incoming.body order))) := by
  have fits : (incoming.body order).length ≤ (incoming.header order).bodySize.toNat := List.length_take_le _ _
  rw [← decoded_exit_iff order _ _ (filled_length _ _ fits)]
  by_cases enough : headerSize ≤ incoming.bytes.length
  · by_cases expected : (incoming.header order).opcode = opcode
    · unfold Guarded
      rw [getNextMessage_body order opcode incoming enough expected]
      by_cases cut : incoming.CutOff order opcode
      · obtain ⟨ended,_,_,less⟩ := cut
        have missing : ¬incoming.Complete order := fun complete => absurd complete.2 (not_le.mpr less)
        rw [if_pos (Or.inl ended)]
        constructor
        · intro guarded _
          exact guarded _ _ rfl missing
        · rintro exits result rest ⟨⟩ _
          exact exits ⟨ended,enough,expected,less⟩
      · refine iff_of_true ?_ fun again => absurd again cut
        intro result rest got missing
        split at got
        next read =>
          obtain ended | complete := read
          · exact absurd ⟨ended,enough,expected,not_le.mp fun fits => missing ⟨enough,fits⟩⟩ cut
          · exact absurd complete missing
        next => cases got
    · refine iff_of_true ?_ fun cut => absurd cut.2.2.1 expected
      intro result rest got _
      rw [getNextMessage_unexpected order opcode incoming enough expected] at got
      cases got
      exact ⟨.unexpectedOpcode,nofun,rfl⟩
  · refine iff_of_true ?_ fun cut => absurd cut.2.1 enough
    intro result rest got _
    rw [getNextMessage_short order opcode incoming (not_le.mp enough)] at got
    split at got
    next =>
      cases got
      exact ⟨.socket,nofun,rfl⟩
    next => cases got

/-- The type `dummy` is announced and the connection ends after two of its bytes. -/
theorem dhtType_cutOff :
    getNextMessage .little Opcode.dhtType ⟨(⟨Opcode.dhtType,5⟩ : MessageHeader).write .little ++ ascii "du",true⟩ =
        some (.ok (.dhtType (ascii "du" ++ [0,0,0])),⟨[],true⟩) ∧
      ¬Guarded .little Opcode.dhtType ⟨(⟨Opcode.dhtType,5⟩ : MessageHeader).write .little ++ ascii "du",true⟩ := by
  have got : getNextMessage .little Opcode.dhtType
      ⟨(⟨Opcode.dhtType,5⟩ : MessageHeader).write .little ++ ascii "du",true⟩ =
        some (.ok (.dhtType (ascii "du" ++ [0,0,0])),⟨[],true⟩) := by decide +kernel
  refine ⟨got,fun guarded => ?_⟩
  obtain ⟨exit,_,same⟩ := guarded _ _ got (by decide +kernel)
  cases same

end DhtperfController
end Dhtperf
