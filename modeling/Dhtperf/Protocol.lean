import Dhtperf.Basic
import Dhtperf.Library.ByteOrder
import Mathlib.Data.List.Basic

/-! The five messages, how each is laid out in bytes and how it is read from a header
and a body. Both ends share one byte order; every copy out of a body is checked. -/
namespace Dhtperf
open Library

abbrev OpcodeType := Int32

structure MessageHeader where
  opcode : OpcodeType
  bodySize : UInt32
  deriving DecidableEq

def headerSize : Nat := 8

namespace Opcode

def dhtType : OpcodeType := 1
def profile : OpcodeType := 2
def start : OpcodeType := 3
def report : OpcodeType := 4
def finish : OpcodeType := 5

end Opcode

def reportAndFinishTimeout : Nat := 90

inductive Message
  | dhtType (type : Bytes)
  | profile (joinProfile leaveProfile putProfile getProfile : Bytes)
  | start (duration : TimeUnit) (entryPointHost : Bytes) (entryPointPortOffset selfPortOffset : UInt16)
  | report (type value : Bytes)
  | finish
  deriving DecidableEq

inductive DecodeError
  | invalidOpcode
  | invalidReport
  | assertion
  /-- A `std::string` of negative size. -/
  | lengthError
  /-- A copy past the end of the body. -/
  | outOfBounds
  deriving DecidableEq

namespace MessageHeader

def write (order : ByteOrder) (header : MessageHeader) : Bytes :=
  order.write 4 header.opcode.toUInt32.toNat ++ order.write 4 header.bodySize.toNat

def read (order : ByteOrder) (bytes : Bytes) : MessageHeader :=
  ⟨(UInt32.ofNat (order.read (bytes.take 4))).toInt32,UInt32.ofNat (order.read ((bytes.drop 4).take 4))⟩

theorem write_length (order : ByteOrder) (header : MessageHeader) :
    (header.write order).length = headerSize := by
  simp [write,headerSize]

theorem read_write (order : ByteOrder) (header : MessageHeader) : read order (header.write order) = header := by
  have first : (header.write order).take 4 = order.write 4 header.opcode.toUInt32.toNat :=
    List.take_left' (ByteOrder.write_length order 4 _)
  have second : ((header.write order).drop 4).take 4 = order.write 4 header.bodySize.toNat := by
    have rest : (header.write order).drop 4 = order.write 4 header.bodySize.toNat :=
      List.drop_left' (ByteOrder.write_length order 4 _)
    rw [rest]
    exact List.take_of_length_le (by simp)
  unfold read
  rw [first,second,ByteOrder.read_write order 4 _ header.opcode.toUInt32.toNat_lt,
    ByteOrder.read_write order 4 _ header.bodySize.toNat_lt,UInt32.ofNat_toNat,UInt32.ofNat_toNat]
  rfl

theorem write_read (order : ByteOrder) (bytes : Bytes) (size : bytes.length = headerSize) :
    (read order bytes).write order = bytes := by
  have first : (bytes.take 4).length = 4 := by rw [List.length_take,size]; rfl
  have second : ((bytes.drop 4).take 4).length = 4 := by rw [List.length_take,List.length_drop,size]; rfl
  have rest : (bytes.drop 4).take 4 = bytes.drop 4 :=
    List.take_of_length_le (by rw [List.length_drop,size]; decide)
  unfold write read
  simp only
  have opcode : (UInt32.ofNat (order.read (bytes.take 4))).toInt32.toUInt32 =
      UInt32.ofNat (order.read (bytes.take 4)) := rfl
  rw [opcode,UInt32.toNat_ofNat_of_lt' (ByteOrder.read_lt order 4 _ first),
    UInt32.toNat_ofNat_of_lt' (ByteOrder.read_lt order 4 _ second),ByteOrder.write_read order 4 _ first,
    ByteOrder.write_read order 4 _ second,rest,List.take_append_drop]

end MessageHeader

namespace Message

def opcode : Message → OpcodeType
  | .dhtType _ => Opcode.dhtType
  | .profile _ _ _ _ => Opcode.profile
  | .start _ _ _ _ => Opcode.start
  | .report _ _ => Opcode.report
  | .finish => Opcode.finish

/-- One field of `ProfileSizes`, an `int32_t`. -/
def writeSize (order : ByteOrder) (text : Bytes) : Bytes := order.write 4 (text.length % 2^32)

def body (order : ByteOrder) : Message → Bytes
  | .dhtType type => type
  | .profile join leave put get =>
    writeSize order join ++ writeSize order leave ++ writeSize order put ++ writeSize order get ++
      join ++ leave ++ put ++ get
  | .start duration entryPointHost entryPointPortOffset selfPortOffset =>
    order.write 4 duration.toNat ++ order.write 2 entryPointPortOffset.toNat ++
      order.write 2 selfPortOffset.toNat ++ entryPointHost
  | .report type value => type ++ [32] ++ value
  | .finish => []

/-- What `toBits` puts before the body; the size keeps 32 bits. -/
def header (order : ByteOrder) (message : Message) : MessageHeader :=
  ⟨message.opcode,UInt32.ofNat (message.body order).length⟩

def bits (order : ByteOrder) (message : Message) : Bytes :=
  (message.header order).write order ++ message.body order

theorem bits_ne_nil (order : ByteOrder) (message : Message) : message.bits order ≠ [] := by
  apply List.ne_nil_of_length_pos
  simp only [bits,List.length_append,MessageHeader.write_length,headerSize]
  omega

/-- The vector has the size of the header, so a longer body is copied past its end. -/
def toBits (order : ByteOrder) (message : Message) : Except Fault Bytes :=
  if (message.body order).length < 2^32 then pure (message.bits order) else throw .outOfRange

theorem toBits_bits (order : ByteOrder) (message : Message) (bits : Bytes) (ok : message.toBits order = .ok bits) :
    bits = message.bits order ∧ (message.body order).length < 2^32 := by
  unfold toBits at ok
  split at ok
  next fits =>
    cases ok
    exact ⟨rfl,fits⟩
  next => cases ok

theorem toBits_all (order : ByteOrder) (messages : List Message)
    (fits : ∀ m ∈ messages, (m.body order).length < 2^32) :
    messages.mapM (toBits order) = .ok (messages.map (bits order)) := by
  induction messages with
  | nil => rfl
  | cons m messages ih =>
    have here : m.toBits order = .ok (m.bits order) := if_pos (fits m (by simp))
    rw [List.mapM_cons,here,ih (fun x inside => fits x (by simp [inside]))]
    rfl

/-- `std::string(&body[offset],length)`; an empty string reads nothing. -/
def copy (body : Bytes) (offset length : Nat) : Except DecodeError Bytes :=
  if length = 0 ∨ offset + length ≤ body.length then pure ((body.drop offset).take length) else throw .outOfBounds

def number (order : ByteOrder) (body : Bytes) (offset width : Nat) : Except DecodeError Nat := do
  let bytes ← copy body offset width
  pure (order.read bytes)

def readSize (order : ByteOrder) (body : Bytes) (offset : Nat) : Except DecodeError Int := do
  let size ← number order body offset 4
  pure (UInt32.ofNat size).toInt32.toInt

def copyText (body : Bytes) (offset : Nat) (size : Int) : Except DecodeError Bytes :=
  if size < 0 then throw .lengthError else copy body offset size.toNat

def ensure (condition : Bool) : Except DecodeError Unit := if condition then pure () else throw .assertion

def readDhtType (header : MessageHeader) (body : Bytes) : Except DecodeError Message := do
  let type ← copy body 0 header.bodySize.toNat
  pure (.dhtType type)

/-- `ProfileSizes` is read through a pointer into the body, each size when it is used. -/
def readProfile (order : ByteOrder) (header : MessageHeader) (body : Bytes) : Except DecodeError Message := do
  let copied := 16
  let joinSize ← readSize order body 0
  let join ← copyText body copied joinSize
  let copied := copied + join.length
  let leaveSize ← readSize order body 4
  let leave ← copyText body copied leaveSize
  let copied := copied + leave.length
  let putSize ← readSize order body 8
  let put ← copyText body copied putSize
  let copied := copied + put.length
  let getSize ← readSize order body 12
  let get ← copyText body copied getSize
  let copied := copied + get.length
  ensure (copied == header.bodySize.toNat)
  pure (.profile join leave put get)

def readStart (order : ByteOrder) (header : MessageHeader) (body : Bytes) : Except DecodeError Message := do
  let duration ← number order body 0 4
  let entryPointPortOffset ← number order body 4 2
  let selfPortOffset ← number order body 6 2
  let entryPointHost ← copyText body 8 (header.bodySize.toNat - 8)
  pure (.start (UInt32.ofNat duration) entryPointHost (UInt16.ofNat entryPointPortOffset)
    (UInt16.ofNat selfPortOffset))

/-- The type ends at the first space; the size of the whole body is checked last. -/
def readReport (header : MessageHeader) (body : Bytes) : Except DecodeError Message :=
  match body.dropWhile (· ≠ 32) with
  | [] => throw .invalidReport
  | _ :: value => do
    ensure (header.bodySize.toNat == body.length)
    pure (.report (body.takeWhile (· ≠ 32)) value)

def readFinish (header : MessageHeader) : Except DecodeError Message := do
  ensure (header.bodySize == 0)
  pure .finish

def fromBits (order : ByteOrder) (header : MessageHeader) (body : Bytes) : Except DecodeError Message :=
  if header.opcode = Opcode.dhtType then readDhtType header body
  else if header.opcode = Opcode.profile then readProfile order header body
  else if header.opcode = Opcode.start then readStart order header body
  else if header.opcode = Opcode.report then readReport header body
  else if header.opcode = Opcode.finish then readFinish header
  else throw .invalidOpcode

/-! ### Reading what was written -/

theorem copy_middle (before text after : Bytes) (offset length : Nat) (start : offset = before.length)
    (size : length = text.length) : copy (before ++ (text ++ after)) offset length = .ok text := by
  subst start size
  have inside : before.length + text.length ≤ (before ++ (text ++ after)).length := by
    simp only [List.length_append]
    omega
  unfold copy
  rw [if_pos (Or.inr inside)]
  simp [pure,Except.pure]

theorem number_middle (order : ByteOrder) (before after : Bytes) (offset width n : Nat)
    (start : offset = before.length) (fits : n < 256^width) :
    number order (before ++ (order.write width n ++ after)) offset width = .ok n := by
  unfold number
  rw [copy_middle before _ after offset width start (ByteOrder.write_length order width n).symm]
  simp [bind,Except.bind,pure,Except.pure,ByteOrder.read_write order width n fits]

theorem signed_value (n : Nat) : (UInt32.ofNat n).toInt32.toInt = (n : Int).bmod (2^32) :=
  BitVec.toInt_ofNat' n

theorem signed_small (n : Nat) (small : n < 2^31) : (UInt32.ofNat n).toInt32.toInt = n := by
  rw [signed_value,Int.bmod_def]
  omega

theorem signed_large (n : Nat) (large : 2^31 ≤ n) (fits : n < 2^32) : (UInt32.ofNat n).toInt32.toInt < 0 := by
  rw [signed_value,Int.bmod_def]
  omega

theorem header_size (order : ByteOrder) (message : Message) (fits : (message.body order).length < 2^32) :
    (message.header order).bodySize.toNat = (message.body order).length := by
  simp only [header,UInt32.toNat_ofNat']
  omega

@[simp] theorem writeSize_length (order : ByteOrder) (text : Bytes) : (writeSize order text).length = 4 :=
  ByteOrder.write_length order 4 _

theorem readSize_middle (order : ByteOrder) (before text after : Bytes) (offset : Nat)
    (start : offset = before.length) (fits : text.length < 2^32) :
    readSize order (before ++ (writeSize order text ++ after)) offset =
      .ok (UInt32.ofNat text.length).toInt32.toInt := by
  unfold readSize writeSize
  rw [Nat.mod_eq_of_lt fits,number_middle order before after offset 4 text.length start (by omega)]
  rfl

/-- A string whose size is a non-negative `int32_t` is copied; a longer one throws. -/
theorem copyText_middle (before text after : Bytes) (offset : Nat) (start : offset = before.length)
    (fits : text.length < 2^32) :
    copyText (before ++ (text ++ after)) offset (UInt32.ofNat text.length).toInt32.toInt =
      if text.length < 2^31 then .ok text else .error .lengthError := by
  unfold copyText
  by_cases small : text.length < 2^31
  · rw [signed_small text.length small,if_neg (by omega),if_pos small,Int.toNat_natCast]
    exact copy_middle before text after offset text.length start rfl
  · rw [if_pos (signed_large text.length (by omega) fits),if_neg small]
    rfl

theorem readDhtType_body (order : ByteOrder) (type buffer : Bytes) (fits : type.length < 2^32)
    (holds : type ≠ [] → buffer = type) :
    readDhtType (header order (.dhtType type)) buffer = .ok (.dhtType type) := by
  unfold readDhtType
  rw [header_size order (.dhtType type) fits]
  by_cases empty : type = []
  · subst empty
    simp [copy,body,bind,Except.bind,pure,Except.pure]
  · rw [holds empty]
    have whole := copy_middle [] type [] 0 type.length rfl rfl
    simp only [List.nil_append,List.append_nil] at whole
    simp only [body]
    rw [whole]
    rfl

def Sized : Message → Prop
  | .profile join leave put get =>
    join.length < 2^31 ∧ leave.length < 2^31 ∧ put.length < 2^31 ∧ get.length < 2^31
  | _ => True

instance (message : Message) : Decidable message.Sized := by
  cases message <;> dsimp only [Sized] <;> infer_instance

theorem readProfile_body (order : ByteOrder) (join leave put get : Bytes)
    (fits : (body order (.profile join leave put get)).length < 2^32) :
    readProfile order (header order (.profile join leave put get)) (body order (.profile join leave put get)) =
      if Sized (.profile join leave put get) then .ok (.profile join leave put get)
      else .error .lengthError := by
  have total := fits
  simp only [body,List.length_append,writeSize_length] at total
  have size1 := readSize_middle order [] join
    (writeSize order leave ++ (writeSize order put ++ (writeSize order get ++ (join ++ (leave ++ (put ++ get))))))
    0 rfl (by omega)
  have size2 := readSize_middle order (writeSize order join) leave
    (writeSize order put ++ (writeSize order get ++ (join ++ (leave ++ (put ++ get))))) 4 (by simp) (by omega)
  have size3 := readSize_middle order (writeSize order join ++ writeSize order leave) put
    (writeSize order get ++ (join ++ (leave ++ (put ++ get)))) 8 (by simp) (by omega)
  have size4 := readSize_middle order (writeSize order join ++ writeSize order leave ++ writeSize order put) get
    (join ++ (leave ++ (put ++ get))) 12 (by simp) (by omega)
  have text1 := copyText_middle
    (writeSize order join ++ writeSize order leave ++ writeSize order put ++ writeSize order get)
    join (leave ++ (put ++ get)) 16 (by simp) (by omega)
  have text2 := copyText_middle
    (writeSize order join ++ writeSize order leave ++ writeSize order put ++ writeSize order get ++ join)
    leave (put ++ get) (16 + join.length) (by simp [← Nat.add_assoc]) (by omega)
  have text3 := copyText_middle
    (writeSize order join ++ writeSize order leave ++ writeSize order put ++ writeSize order get ++ join ++ leave)
    put get (16 + join.length + leave.length) (by simp [← Nat.add_assoc]) (by omega)
  have text4 := copyText_middle
    (writeSize order join ++ writeSize order leave ++ writeSize order put ++ writeSize order get ++ join ++ leave ++ put)
    get [] (16 + join.length + leave.length + put.length) (by simp [← Nat.add_assoc]) (by omega)
  have whole : (16 + join.length + leave.length + put.length + get.length ==
      (header order (.profile join leave put get)).bodySize.toNat) = true := by
    rw [header_size order _ fits]
    simp [body,← Nat.add_assoc]
  simp only [List.append_assoc,List.append_nil,List.nil_append] at size1 size2 size3 size4 text1 text2 text3 text4
  simp only [readProfile,body,List.append_assoc,size1,text1,bind,Except.bind]
  by_cases small1 : join.length < 2^31
  · simp only [if_pos small1,size2,text2]
    by_cases small2 : leave.length < 2^31
    · simp only [if_pos small2,size3,text3]
      by_cases small3 : put.length < 2^31
      · simp only [if_pos small3,size4,text4]
        by_cases small4 : get.length < 2^31
        · simp only [if_pos small4,whole]
          rw [if_pos ⟨small1,small2,small3,small4⟩]
          rfl
        · rw [if_neg small4,if_neg fun sized => small4 sized.2.2.2]
      · rw [if_neg small3,if_neg fun sized => small3 sized.2.2.1]
    · rw [if_neg small2,if_neg fun sized => small2 sized.2.1]
  · rw [if_neg small1,if_neg fun sized => small1 sized.1]

theorem readStart_body (order : ByteOrder) (duration : TimeUnit) (host : Bytes) (entry self : UInt16)
    (fits : (body order (.start duration host entry self)).length < 2^32) :
    readStart order (header order (.start duration host entry self)) (body order (.start duration host entry self)) =
      .ok (.start duration host entry self) := by
  have number1 := number_middle order [] (order.write 2 entry.toNat ++ (order.write 2 self.toNat ++ host))
    0 4 duration.toNat rfl duration.toNat_lt
  have number2 := number_middle order (order.write 4 duration.toNat) (order.write 2 self.toNat ++ host)
    4 2 entry.toNat (by simp) entry.toNat_lt
  have number3 := number_middle order (order.write 4 duration.toNat ++ order.write 2 entry.toNat) host
    6 2 self.toNat (by simp) self.toNat_lt
  have text := copy_middle
    (order.write 4 duration.toNat ++ order.write 2 entry.toNat ++ order.write 2 self.toNat) host []
    8 host.length (by simp) rfl
  have size : ((header order (.start duration host entry self)).bodySize.toNat : Int) - 8 = host.length := by
    rw [header_size order _ fits]
    simp [body]
    omega
  simp only [List.append_assoc,List.append_nil,List.nil_append] at number1 number2 number3 text
  simp only [readStart,body,List.append_assoc,number1,number2,number3,bind,Except.bind]
  rw [size]
  simp only [copyText,Int.natCast_nonneg,not_lt.mpr,if_false,Int.toNat_natCast,text]
  simp [pure,Except.pure]

theorem readReport_body (order : ByteOrder) (type value : Bytes) (plain : 32 ∉ type)
    (fits : (body order (.report type value)).length < 2^32) :
    readReport (header order (.report type value)) (body order (.report type value)) =
      .ok (.report type value) := by
  have clear : ∀ c ∈ type, (decide (c ≠ 32)) = true := by
    intro c member
    exact decide_eq_true fun same => plain (same ▸ member)
  have dropped : (body order (.report type value)).dropWhile (· ≠ 32) = 32 :: value := by
    simp only [body,List.append_assoc]
    rw [List.dropWhile_append_of_pos clear]
    rfl
  have taken : (body order (.report type value)).takeWhile (· ≠ 32) = type := by
    simp only [body,List.append_assoc]
    rw [List.takeWhile_append_of_pos clear]
    simp
  unfold readReport
  rw [dropped,taken,header_size order _ fits]
  simp [ensure,bind,Except.bind,pure,Except.pure]

def Plain : Message → Prop
  | .report type _ => 32 ∉ type
  | _ => True

instance (message : Message) : Decidable message.Plain := by
  cases message <;> dsimp only [Plain] <;> infer_instance

/-- Decoding the header and the body of a message gives the message back, also when an
empty body leaves an older buffer in place; only too long profiles throw. -/
theorem fromBits_body (order : ByteOrder) (message : Message) (buffer : Bytes)
    (fits : (message.body order).length < 2^32) (plain : message.Plain)
    (holds : message.body order ≠ [] → buffer = message.body order) :
    fromBits order (message.header order) buffer =
      if message.Sized then .ok message else .error .lengthError := by
  cases message with
  | dhtType type => exact readDhtType_body order type buffer fits holds
  | profile join leave put get =>
    have some : body order (.profile join leave put get) ≠ [] :=
      List.ne_nil_of_length_pos (by simp only [body,List.length_append,writeSize_length]; omega)
    rw [holds some]
    exact readProfile_body order join leave put get fits
  | start duration host entry self =>
    have some : body order (.start duration host entry self) ≠ [] :=
      List.ne_nil_of_length_pos (by simp only [body,List.length_append,ByteOrder.write_length]; omega)
    rw [holds some]
    exact readStart_body order duration host entry self fits
  | report type value =>
    have some : body order (.report type value) ≠ [] := by simp [body]
    rw [holds some]
    exact readReport_body order type value plain fits
  | finish => rfl

end Message
end Dhtperf
