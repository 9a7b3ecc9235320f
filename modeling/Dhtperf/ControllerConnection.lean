import Dhtperf.Protocol
import Dhtperf.Library.Streams

/-! The master's end of a connection to one controller: a header is read, then a body,
and messages are written from one buffer. Asynchronous operations that have not
completed are kept in lists, so that nothing here assumes there is only one. -/
namespace Dhtperf
open Library

inductive Abort
  /-- `Message::fromBits` refuses or throws. -/
  | decode (error : DecodeError)
  /-- `remote_endpoint` throws. -/
  | lookup
  /-- `handleWrite` was called with an error. -/
  | write
  /-- `handleAccept` was called with an error. -/
  | accept
  /-- A message is copied past the end of its vector. -/
  | overflow
  /-- A node has no profile. -/
  | noProfile
  /-- The switch of `DhtperfMaster::handleMessage` found no case. -/
  | invalidOpcode
  | invalidResultType
  /-- The text of a result was refused. -/
  | result (fault : Fault)
  deriving DecidableEq

/-- An `async_read` under way, with the bytes it has got so far. -/
inductive PendingRead
  | header (got : Bytes)
  | body (got : Bytes)
  deriving DecidableEq

/-- An `async_write` under way: the message it was started with and how many bytes of
it are gone. -/
structure PendingWrite where
  bits : Bytes
  transferred : Nat
  deriving DecidableEq

/-- What a chunk of a pending write is read from: the buffer of the connection at that
moment, as the code has it, or the message itself. -/
inductive WriteModel
  | shared
  | intact
  deriving DecidableEq

/-- File descriptors are non-negative `int`s. -/
abbrev Descriptor := Fin (2^31)

/-- The members, the operations under way, and the history of the socket: messages
sent, bytes that went out and bytes that came in. -/
structure ControllerConnection where
  descriptor : Descriptor
  address : Bytes
  headerBuffer : MessageHeader
  bodyBuffer : Bytes
  writeBuffer : Bytes
  reads : List PendingRead
  writes : List PendingWrite
  sent : List Message
  received : Bytes
  taken : Bytes

namespace ControllerConnection

def make (descriptor : Descriptor) (address : Bytes) : ControllerConnection where
  descriptor := descriptor
  address := address
  headerBuffer := ⟨0,0⟩
  bodyBuffer := []
  writeBuffer := []
  reads := []
  writes := []
  sent := []
  received := []
  taken := []

/-! ### Reading -/

def asyncWaitForMessage (c : ControllerConnection) : ControllerConnection :=
  {c with reads := c.reads ++ [.header []]}

def resize (buffer : Bytes) (size : Nat) : Bytes :=
  buffer.take size ++ List.replicate (size - buffer.length) 0

/-- The call of the message handler is left to the caller. -/
def handleMessage (order : ByteOrder) (c : ControllerConnection) :
    Except Abort (ControllerConnection × Option Message) :=
  match Message.fromBits order c.headerBuffer c.bodyBuffer with
  | .ok message => pure (c,some message)
  | .error error => throw (.decode error)

/-- The message it logs looks up the address of the peer. -/
def handleHeaderRead (order : ByteOrder) (reachable : Bool) (c : ControllerConnection) :
    Except Abort (ControllerConnection × Option Message) :=
  if ¬reachable then throw .lookup
  else if c.headerBuffer.bodySize > 0 then
    pure ({c with
      bodyBuffer := resize c.bodyBuffer c.headerBuffer.bodySize.toNat
      reads := c.reads ++ [.body []]},none)
  else c.handleMessage order

def handleBodyRead (order : ByteOrder) (c : ControllerConnection) :
    Except Abort (ControllerConnection × Option Message) :=
  c.handleMessage order

/-- A byte arrives for the oldest pending read, which completes with its last byte. -/
def receive (order : ByteOrder) (reachable : Bool) (c : ControllerConnection) (byte : UInt8) :
    Except Abort (ControllerConnection × Option Message) :=
  let c := {c with taken := c.taken ++ [byte]}
  match c.reads with
  | [] => pure (c,none)
  | .header got :: reads =>
    if (got ++ [byte]).length < headerSize then pure ({c with reads := .header (got ++ [byte]) :: reads},none)
    else handleHeaderRead order reachable
      {c with reads := reads, headerBuffer := MessageHeader.read order (got ++ [byte])}
  | .body got :: reads =>
    if (got ++ [byte]).length < c.headerBuffer.bodySize.toNat then
      pure ({c with reads := .body (got ++ [byte]) :: reads},none)
    else handleBodyRead order {c with reads := reads, bodyBuffer := got ++ [byte]}

/-! ### Writing -/

/-- How many of the bytes that could leave at once do: an intact write waits for those
before it. -/
def immediate (model : WriteModel) (c : ControllerConnection) (atOnce : Nat) : Nat :=
  if model = .intact ∧ c.writes ≠ [] then 0 else atOnce

/-- `async_write` may put the first bytes on the socket at once. -/
def sendMessage (order : ByteOrder) (model : WriteModel) (message : Message) (atOnce : Nat)
    (c : ControllerConnection) : Except Abort ControllerConnection :=
  match message.toBits order with
  | .error _ => throw .overflow
  | .ok bits => pure {c with
      writeBuffer := bits
      writes := c.writes ++ if c.immediate model atOnce < bits.length then [⟨bits,c.immediate model atOnce⟩] else []
      sent := c.sent ++ [message]
      received := c.received ++ bits.take (c.immediate model atOnce)}

/-- The bytes that a pending write puts on the socket next. What lies behind the end of
a buffer that has become shorter is not known. -/
def chunk (model : WriteModel) (c : ControllerConnection) (write : PendingWrite) (count : Nat)
    (beyond : Bytes) : Bytes :=
  match model with
  | .shared => (c.writeBuffer.drop write.transferred ++ beyond).take count
  | .intact => (write.bits.drop write.transferred).take count

/-- A chunk of a pending write is transmitted; intact writes leave in their order. -/
def transmit (model : WriteModel) (c : ControllerConnection) (index count : Nat) (beyond : Bytes) :
    Option ControllerConnection :=
  match c.writes[index]? with
  | none => none
  | some write =>
    if 0 < count ∧ write.transferred + count ≤ write.bits.length ∧
        (c.chunk model write count beyond).length = count ∧ (model = .intact → index = 0) then
      some {c with
        writes :=
          if write.transferred + count < write.bits.length then
            c.writes.set index ⟨write.bits,write.transferred + count⟩
          else c.writes.eraseIdx index
        received := c.received ++ c.chunk model write count beyond}
    else none

def untransmitted (c : ControllerConnection) : Bytes :=
  c.writes.flatMap fun write => write.bits.drop write.transferred

/-! ### What the operations leave alone -/

/-- What a byte changes: the read side and the history of the bytes read. -/
def ReadOnly (c after : ControllerConnection) (byte : UInt8) : Prop :=
  ∃ header body reads,
    after = {c with headerBuffer := header, bodyBuffer := body, reads := reads, taken := c.taken ++ [byte]}

theorem handleMessage_shape (order : ByteOrder) (c after : ControllerConnection) (message : Option Message)
    (ok : c.handleMessage order = .ok (after,message)) : after = c ∧ message.isSome = true := by
  unfold handleMessage at ok
  split at ok
  · cases ok
    exact ⟨rfl,rfl⟩
  · cases ok

/-- A byte takes up one pending read, which goes on, becomes another one or, with a
message, is gone. -/
theorem receive_shape (order : ByteOrder) (reachable : Bool) (c after : ControllerConnection) (byte : UInt8)
    (message : Option Message) (awaiting : c.reads ≠ [])
    (ok : c.receive order reachable byte = .ok (after,message)) :
    ReadOnly c after byte ∧ after.reads.length + (if message.isSome then 1 else 0) = c.reads.length := by
  unfold receive at ok
  dsimp only at ok
  split at ok
  next none => exact absurd none awaiting
  next got reads pending =>
    split at ok
    · cases ok
      exact ⟨⟨_,_,_,rfl⟩,by simp [pending]⟩
    · unfold handleHeaderRead at ok
      split at ok
      · cases ok
      · split at ok
        · cases ok
          exact ⟨⟨_,_,_,rfl⟩,by simp [pending]⟩
        · obtain ⟨rfl,delivered⟩ := handleMessage_shape order _ _ _ ok
          exact ⟨⟨_,_,_,rfl⟩,by simp [pending,delivered]⟩
  next got reads pending =>
    split at ok
    · cases ok
      exact ⟨⟨_,_,_,rfl⟩,by simp [pending]⟩
    · obtain ⟨rfl,delivered⟩ := handleMessage_shape order _ _ _ ok
      exact ⟨⟨_,_,_,rfl⟩,by simp [pending,delivered]⟩

def sentWith (c : ControllerConnection) (message : Message) (bits : Bytes) (atOnce : Nat) : ControllerConnection :=
  {c with
    writeBuffer := bits
    writes := c.writes ++ if atOnce < bits.length then [⟨bits,atOnce⟩] else []
    sent := c.sent ++ [message]
    received := c.received ++ bits.take atOnce}

theorem immediate_idle (model : WriteModel) (c : ControllerConnection) (atOnce : Nat) (idle : c.writes = []) :
    c.immediate model atOnce = atOnce := if_neg fun waits => waits.2 idle

theorem sendMessage_shape (order : ByteOrder) (model : WriteModel) (c after : ControllerConnection)
    (message : Message) (atOnce : Nat) (ok : c.sendMessage order model message atOnce = .ok after) :
    ∃ bits, message.toBits order = .ok bits ∧ after = c.sentWith message bits (c.immediate model atOnce) := by
  unfold sendMessage at ok
  split at ok
  · cases ok
  next bits written =>
    cases ok
    exact ⟨bits,written,rfl⟩

theorem transmit_shape (model : WriteModel) (c after : ControllerConnection) (index count : Nat) (beyond : Bytes)
    (ok : c.transmit model index count beyond = some after) :
    ∃ writes received, after = {c with writes := writes, received := received} := by
  unfold transmit at ok
  split at ok
  · cases ok
  · split at ok
    · cases ok
      exact ⟨_,_,rfl⟩
    · cases ok

end ControllerConnection
end Dhtperf
