import Dhtperf.Protocol

/-! Decoding of bytes that nobody has encoded. Where a copy may leave the body is told by
the sizes in the body; where it does not, and a message is built, the bytes are the ones
the message would be encoded to. -/
namespace Dhtperf
open Library

namespace Message

def piece (body : Bytes) (offset length : Nat) : Bytes := (body.drop offset).take length

def sizeAt (order : ByteOrder) (body : Bytes) (offset : Nat) : Int :=
  (UInt32.ofNat (order.read (piece body offset 4))).toInt32.toInt

theorem number_eq (order : ByteOrder) (body : Bytes) (offset width : Nat) (positive : 0 < width) :
    number order body offset width =
      if offset + width ≤ body.length then .ok (order.read (piece body offset width)) else .error .outOfBounds := by
  have some : ¬width = 0 := by omega
  unfold number copy
  by_cases fits : offset + width ≤ body.length
  · rw [if_pos (Or.inr fits),if_pos fits]
    rfl
  · rw [if_neg (not_or.mpr ⟨some,fits⟩),if_neg fits]
    rfl

theorem readSize_eq (order : ByteOrder) (body : Bytes) (offset : Nat) :
    readSize order body offset =
      if offset + 4 ≤ body.length then .ok (sizeAt order body offset) else .error .outOfBounds := by
  unfold readSize
  rw [number_eq order body offset 4 (by decide)]
  split <;> rfl

theorem copyText_eq (body : Bytes) (offset : Nat) (size : Int) :
    copyText body offset size =
      if size < 0 then .error .lengthError
      else if size = 0 ∨ offset + size.toNat ≤ body.length then .ok (piece body offset size.toNat)
      else .error .outOfBounds := by
  unfold copyText copy
  split
  next => rfl
  next natural =>
    have zero : size.toNat = 0 ↔ size = 0 := by omega
    simp only [zero]
    rfl

theorem piece_length (body : Bytes) (offset length : Nat) (fits : length = 0 ∨ offset + length ≤ body.length) :
    (piece body offset length).length = length := by
  rw [piece,List.length_take,List.length_drop]
  omega

/-! ### Reads outside the body -/

/-- Every byte that is read lies inside the body. -/
def Inside {α : Type} (result : Except DecodeError α) : Prop := result ≠ .error .outOfBounds

theorem inside_outcomes (result : Except DecodeError Message) :
    Inside result ↔ (∃ message, result = .ok message) ∨
      ∃ rejection ∈ [DecodeError.invalidOpcode,.invalidReport,.assertion,.lengthError], result = .error rejection := by
  cases result with
  | ok message => exact iff_of_true nofun (Or.inl ⟨message,rfl⟩)
  | error error => cases error <;> simp [Inside]

/-- The texts whose sizes stand at some offsets are copied from inside the body, up to the
first one of a negative size. -/
def TextsInside (order : ByteOrder) (body : Bytes) : List Nat → Nat → Prop
  | [],_ => True
  | offset :: offsets,copied =>
    offset + 4 ≤ body.length ∧ (0 ≤ sizeAt order body offset →
      (sizeAt order body offset = 0 ∨ copied + (sizeAt order body offset).toNat ≤ body.length) ∧
        TextsInside order body offsets (copied + (sizeAt order body offset).toNat))

instance (order : ByteOrder) (body : Bytes) (offsets : List Nat) (copied : Nat) :
    Decidable (TextsInside order body offsets copied) := by
  induction offsets generalizing copied with
  | nil => exact instDecidableTrue
  | cons offset offsets ih =>
    unfold TextsInside
    infer_instance

def ReadsInside (order : ByteOrder) (opcode : OpcodeType) (body : Bytes) : Prop :=
  (opcode = Opcode.profile → TextsInside order body [0,4,8,12] 16) ∧ (opcode = Opcode.start → 8 ≤ body.length)

theorem inside_text {α : Type} (order : ByteOrder) (body : Bytes) (offset copied : Nat) (offsets : List Nat)
    (next : Bytes → Except DecodeError α)
    (rest : ∀ text : Bytes, Inside (next text) ↔ TextsInside order body offsets (copied + text.length)) :
    Inside (do
      let size ← readSize order body offset
      let text ← copyText body copied size
      next text) ↔ TextsInside order body (offset :: offsets) copied := by
  rw [readSize_eq,TextsInside]
  by_cases fits : offset + 4 ≤ body.length
  · rw [if_pos fits]
    change Inside (copyText body copied (sizeAt order body offset) >>= next) ↔ _
    rw [copyText_eq]
    by_cases negative : sizeAt order body offset < 0
    · rw [if_pos negative]
      exact iff_of_true nofun ⟨fits,fun natural => absurd negative (not_lt.mpr natural)⟩
    · rw [if_neg negative]
      have natural := not_lt.mp negative
      by_cases reads : sizeAt order body offset = 0 ∨ copied + (sizeAt order body offset).toNat ≤ body.length
      · rw [if_pos reads]
        apply (rest _).trans
        rw [piece_length body copied _ (by omega)]
        exact ⟨fun later => ⟨fits,fun _ => ⟨reads,later⟩⟩,fun all => (all.2 natural).2⟩
      · rw [if_neg reads]
        exact iff_of_false (fun inside => inside rfl) fun all => reads (all.2 natural).1
  · rw [if_neg fits]
    exact iff_of_false (fun inside => inside rfl) fun all => fits all.1

theorem inside_profile (order : ByteOrder) (header : MessageHeader) (body : Bytes) :
    Inside (readProfile order header body) ↔ TextsInside order body [0,4,8,12] 16 := by
  unfold readProfile
  apply inside_text order body 0 16 [4,8,12] _
  intro join
  apply inside_text order body 4 _ [8,12] _
  intro leave
  apply inside_text order body 8 _ [12] _
  intro put
  apply inside_text order body 12 _ [] _
  intro get
  refine iff_of_true ?_ trivial
  dsimp only [ensure]
  split <;> nofun

theorem inside_start (order : ByteOrder) (header : MessageHeader) (body : Bytes)
    (whole : body.length = header.bodySize.toNat) : Inside (readStart order header body) ↔ 8 ≤ body.length := by
  unfold readStart
  rw [number_eq order body 0 4 (by decide),number_eq order body 4 2 (by decide),number_eq order body 6 2 (by decide)]
  by_cases long : 8 ≤ body.length
  · rw [if_pos (by omega),if_pos (by omega),if_pos (by omega)]
    simp only [bind,Except.bind]
    rw [copyText_eq,if_neg (by omega),if_pos (by omega)]
    exact iff_of_true nofun long
  · refine iff_of_false ?_ long
    intro inside
    apply inside
    by_cases first : 0 + 4 ≤ body.length
    · rw [if_pos first]
      by_cases second : 4 + 2 ≤ body.length
      · rw [if_pos second,if_neg (by omega)]
        rfl
      · rw [if_neg second]
        rfl
    · rw [if_neg first]
      rfl

/-- A body of the announced size is read without leaving it exactly when the sizes in it
allow that; the checks come after the copies. -/
theorem fromBits_inside_iff (order : ByteOrder) (header : MessageHeader) (body : Bytes)
    (whole : body.length = header.bodySize.toNat) :
    Inside (fromBits order header body) ↔ ReadsInside order header.opcode body := by
  have apart {a b : OpcodeType} (here : header.opcode = a) (other : a ≠ b) : ¬header.opcode = b := here ▸ other
  unfold fromBits ReadsInside
  split
  next opcode =>
    refine iff_of_true ?_ ⟨fun same => absurd same (apart opcode (by decide)),
      fun same => absurd same (apart opcode (by decide))⟩
    unfold readDhtType copy
    rw [if_pos (Or.inr (by omega))]
    nofun
  split
  next opcode =>
    rw [inside_profile]
    exact ⟨fun inside => ⟨fun _ => inside,fun same => absurd same (apart opcode (by decide))⟩,
      fun both => both.1 opcode⟩
  next noProfile =>
    split
    next opcode =>
      rw [inside_start order header body whole]
      exact ⟨fun long => ⟨fun same => absurd same noProfile,fun _ => long⟩,fun both => both.2 opcode⟩
    next noStart =>
      refine iff_of_true ?_ ⟨fun same => absurd same noProfile,fun same => absurd same noStart⟩
      split
      next =>
        unfold readReport ensure
        split
        next => nofun
        next => split <;> nofun
      next =>
        split
        next =>
          unfold readFinish ensure
          split <;> nofun
        next => nofun

/-- Two profile strings, the second of a negative size: nothing outside the body is read
before the string is refused. -/
theorem negative_inside :
    Inside (fromBits .little ⟨Opcode.profile,18⟩
      ([2,0,0,0, 255,255,255,255, 0,0,0,0, 0,0,0,0] ++ ascii "ab")) :=
  (fromBits_inside_iff .little ⟨Opcode.profile,18⟩ _ rfl).mpr ⟨fun _ => by decide,fun same => absurd same (by decide)⟩

/-- A Start message without a body. -/
theorem empty_start_outside : ¬Inside (fromBits .little ⟨Opcode.start,0⟩ []) := fun inside => inside rfl

/-! ### The bytes of a message that was built -/

theorem piece_append (body : Bytes) (offset first second : Nat) :
    piece body offset first ++ piece body (offset + first) second = piece body offset (first + second) := by
  rw [piece,piece,piece,List.take_add,List.drop_drop]

theorem next_piece (body text : Bytes) (copied : Nat) (here : text = piece body copied text.length) :
    piece body 0 copied ++ text = piece body 0 (copied + text.length) := by
  have longer := piece_append body 0 copied text.length
  rw [Nat.zero_add,← here] at longer
  exact longer

theorem piece_all (body : Bytes) : piece body 0 body.length = body := List.take_length

theorem writeSize_sizeAt (order : ByteOrder) (body text : Bytes) (offset : Nat) (fits : offset + 4 ≤ body.length)
    (natural : 0 ≤ sizeAt order body offset) (length : text.length = (sizeAt order body offset).toNat) :
    writeSize order text = piece body offset 4 := by
  have size := piece_length body offset 4 (Or.inr fits)
  have small := ByteOrder.read_lt order 4 _ size
  have half : order.read (piece body offset 4) < 2^31 := by
    by_contra large
    exact absurd natural (not_le.mpr (signed_large _ (not_lt.mp large) (by omega)))
  rw [sizeAt,signed_small _ half,Int.toNat_natCast] at length
  rw [writeSize,length,Nat.mod_eq_of_lt (by omega)]
  exact ByteOrder.write_read order 4 _ size

theorem readText_ok {α : Type} (order : ByteOrder) (body : Bytes) (offset copied : Nat)
    (next : Bytes → Except DecodeError α) (result : α)
    (ok : (do
      let size ← readSize order body offset
      let text ← copyText body copied size
      next text) = .ok result) :
    ∃ text : Bytes, (0 ≤ sizeAt order body offset ∧ text.length = (sizeAt order body offset).toNat) ∧
      writeSize order text = piece body offset 4 ∧ text = piece body copied text.length ∧
      next text = .ok result := by
  obtain ⟨size,sized,ok⟩ := bind_ok ok
  obtain ⟨text,copied_,ok⟩ := bind_ok ok
  rw [readSize_eq] at sized
  split at sized
  next fits =>
    cases sized
    rw [copyText_eq] at copied_
    split at copied_
    next => cases copied_
    next natural =>
      split at copied_
      next reads =>
        cases copied_
        have length := piece_length body copied (sizeAt order body offset).toNat (by omega)
        exact ⟨_,⟨not_lt.mp natural,length⟩,writeSize_sizeAt order body _ offset fits (by omega) length,
          by rw [length],ok⟩
      next => cases copied_
  next => cases sized

theorem readNumber_ok {α : Type} (order : ByteOrder) (body : Bytes) (offset width : Nat) (positive : 0 < width)
    (next : Nat → Except DecodeError α) (result : α)
    (ok : (number order body offset width >>= next) = .ok result) :
    ∃ n, n < 256^width ∧ order.write width n = piece body offset width ∧ offset + width ≤ body.length ∧
      next n = .ok result := by
  obtain ⟨n,read,ok⟩ := bind_ok ok
  rw [number_eq order body offset width positive] at read
  split at read
  next fits =>
    cases read
    have size := piece_length body offset width (Or.inr fits)
    exact ⟨_,ByteOrder.read_lt order width _ size,ByteOrder.write_read order width _ size,fits,ok⟩
  next => cases read

theorem readText_next {α : Type} (order : ByteOrder) (body : Bytes) (offset copied : Nat)
    (next : Bytes → Except DecodeError α) (fits : offset + 4 ≤ body.length) (natural : 0 ≤ sizeAt order body offset)
    (reads : copied + (sizeAt order body offset).toNat ≤ body.length) :
    ∃ text : Bytes, text.length = (sizeAt order body offset).toNat ∧ (do
      let size ← readSize order body offset
      let text ← copyText body copied size
      next text) = next text := by
  refine ⟨piece body copied (sizeAt order body offset).toNat,piece_length body copied _ (Or.inr reads),?_⟩
  rw [readSize_eq,if_pos fits]
  change (copyText body copied (sizeAt order body offset) >>= next) = _
  rw [copyText_eq,if_neg (not_lt.mpr natural),if_pos (Or.inr reads)]
  rfl

def SizesFill (order : ByteOrder) (body : Bytes) : Prop :=
  (∀ offset ∈ [0,4,8,12], 0 ≤ sizeAt order body offset) ∧
    16 + (sizeAt order body 0).toNat + (sizeAt order body 4).toNat + (sizeAt order body 8).toNat +
      (sizeAt order body 12).toNat = body.length

instance (order : ByteOrder) (body : Bytes) : Decidable (SizesFill order body) :=
  inferInstanceAs (Decidable (_ ∧ _))

theorem profile_built_iff (order : ByteOrder) (header : MessageHeader) (body : Bytes)
    (whole : body.length = header.bodySize.toNat) :
    (∃ message, readProfile order header body = .ok message) ↔ SizesFill order body := by
  constructor
  · rintro ⟨message,ok⟩
    obtain ⟨join,⟨natural1,length1⟩,_,_,ok⟩ := readText_ok order body 0 16 _ message ok
    obtain ⟨leave,⟨natural2,length2⟩,_,_,ok⟩ := readText_ok order body 4 _ _ message ok
    obtain ⟨put,⟨natural3,length3⟩,_,_,ok⟩ := readText_ok order body 8 _ _ message ok
    obtain ⟨get,⟨natural4,length4⟩,_,_,ok⟩ := readText_ok order body 12 _ _ message ok
    obtain ⟨_,checked,ok⟩ := bind_ok ok
    refine ⟨by simp [natural1,natural2,natural3,natural4],?_⟩
    unfold ensure at checked
    split at checked
    next equal => rw [whole,← length1,← length2,← length3,← length4]; exact beq_iff_eq.mp equal
    next => cases checked
  · rintro ⟨natural,total⟩
    simp only [List.forall_mem_cons] at natural
    obtain ⟨natural1,natural2,natural3,natural4,_⟩ := natural
    obtain ⟨join,length1,step1⟩ := readText_next order body 0 16 _ (by omega) natural1 (by omega)
    obtain ⟨leave,length2,step2⟩ := readText_next order body 4 (16 + join.length) _ (by omega) natural2 (by omega)
    obtain ⟨put,length3,step3⟩ := readText_next order body 8 (16 + join.length + leave.length) _ (by omega) natural3
      (by omega)
    obtain ⟨get,length4,step4⟩ := readText_next order body 12 (16 + join.length + leave.length + put.length) _
      (by omega) natural4 (by omega)
    refine ⟨.profile join leave put get,(step1.trans (step2.trans (step3.trans step4))).trans ?_⟩
    have equal : (16 + join.length + leave.length + put.length + get.length == header.bodySize.toNat) = true :=
      beq_iff_eq.mpr (by omega)
    simp only [ensure,equal]
    rfl

def Rejected (order : ByteOrder) (header : MessageHeader) (body : Bytes) : Prop :=
  if header.opcode = Opcode.dhtType then False
  else if header.opcode = Opcode.profile then TextsInside order body [0,4,8,12] 16 ∧ ¬SizesFill order body
  else if header.opcode = Opcode.start then False
  else if header.opcode = Opcode.report then 32 ∉ body
  else if header.opcode = Opcode.finish then header.bodySize ≠ 0
  else True

theorem rejection_iff (result : Except DecodeError Message) :
    (∃ rejection, rejection ≠ .outOfBounds ∧ result = .error rejection) ↔
      Inside result ∧ ¬∃ message, result = .ok message := by
  cases result with
  | ok message => exact iff_of_false (fun ⟨_,_,same⟩ => nomatch same) fun both => both.2 ⟨message,rfl⟩
  | error error =>
    constructor
    · rintro ⟨rejection,inside,same⟩
      cases same
      exact ⟨fun outside => inside (Except.error.inj outside),nofun⟩
    · rintro ⟨inside,_⟩
      exact ⟨error,fun outside => inside (congrArg Except.error outside),rfl⟩

theorem start_not_rejected (order : ByteOrder) (header : MessageHeader) (body : Bytes)
    (whole : body.length = header.bodySize.toNat) :
    ¬∃ rejection, rejection ≠ .outOfBounds ∧ readStart order header body = .error rejection := by
  rw [rejection_iff,inside_start order header body whole]
  rintro ⟨long,unbuilt⟩
  apply unbuilt
  unfold readStart
  rw [number_eq order body 0 4 (by decide),number_eq order body 4 2 (by decide),number_eq order body 6 2 (by decide),
    if_pos (by omega),if_pos (by omega),if_pos (by omega)]
  simp only [bind,Except.bind]
  rw [copyText_eq,if_neg (by omega),if_pos (by omega)]
  exact ⟨_,rfl⟩

theorem report_rejected_iff (header : MessageHeader) (body : Bytes) (whole : body.length = header.bodySize.toNat) :
    (∃ rejection, rejection ≠ .outOfBounds ∧ readReport header body = .error rejection) ↔ 32 ∉ body := by
  unfold readReport
  split
  next none =>
    refine iff_of_true ⟨.invalidReport,by decide,rfl⟩ fun space => ?_
    have all := List.takeWhile_append_dropWhile (p := (· ≠ 32)) (l := body)
    rw [none,List.append_nil] at all
    rw [← all] at space
    exact absurd (List.all_eq_true.mp List.all_takeWhile 32 space) (by decide)
  next separator value found =>
    refine iff_of_false ?_ ?_
    · have equal : (header.bodySize.toNat == body.length) = true := beq_iff_eq.mpr whole.symm
      rw [ensure,equal]
      rintro ⟨_,_,same⟩
      cases same
    · intro absent
      apply absent
      obtain rfl := separator_space body separator value found
      have inside : 32 ∈ body.dropWhile (· ≠ 32) := found ▸ List.mem_cons_self
      exact (List.dropWhile_sublist _).subset inside

theorem fromBits_rejected_iff (order : ByteOrder) (header : MessageHeader) (body : Bytes)
    (whole : body.length = header.bodySize.toNat) :
    (∃ rejection, rejection ≠ .outOfBounds ∧ fromBits order header body = .error rejection) ↔
      Rejected order header body := by
  unfold fromBits Rejected
  split
  next =>
    refine iff_of_false ?_ id
    unfold readDhtType copy
    rw [if_pos (Or.inr (by omega))]
    rintro ⟨_,_,same⟩
    cases same
  split
  next => rw [rejection_iff,inside_profile,profile_built_iff order header body whole]
  split
  next => exact iff_of_false (start_not_rejected order header body whole) id
  split
  next => exact report_rejected_iff header body whole
  split
  next =>
    unfold readFinish ensure
    by_cases empty : header.bodySize = 0
    · rw [if_pos (beq_iff_eq.mpr empty)]
      refine iff_of_false ?_ (not_not.mpr empty)
      rintro ⟨_,_,same⟩
      cases same
    · rw [if_neg (fun same => empty (beq_iff_eq.mp same))]
      exact iff_of_true ⟨.assertion,by decide,rfl⟩ empty
  next => exact iff_of_true ⟨.invalidOpcode,by decide,rfl⟩ trivial

def Faithful (order : ByteOrder) (header : MessageHeader) (body : Bytes) (message : Message) : Prop :=
  message.opcode = header.opcode ∧ message.body order = body

theorem profile_bytes (order : ByteOrder) (header : MessageHeader) (body : Bytes) (message : Message)
    (opcode : header.opcode = Opcode.profile) (whole : body.length = header.bodySize.toNat)
    (ok : readProfile order header body = .ok message) : Faithful order header body message := by
  unfold readProfile at ok
  obtain ⟨join,_,joinSize,joinText,ok⟩ := readText_ok order body 0 16 _ message ok
  obtain ⟨leave,_,leaveSize,leaveText,ok⟩ := readText_ok order body 4 _ _ message ok
  obtain ⟨put,_,putSize,putText,ok⟩ := readText_ok order body 8 _ _ message ok
  obtain ⟨get,_,getSize,getText,ok⟩ := readText_ok order body 12 _ _ message ok
  obtain ⟨_,checked,ok⟩ := bind_ok ok
  cases ok
  have total : 16 + join.length + leave.length + put.length + get.length = body.length := by
    unfold ensure at checked
    split at checked
    next equal => rw [whole]; exact beq_iff_eq.mp equal
    next => cases checked
  refine ⟨opcode.symm,?_⟩
  calc Message.body order (.profile join leave put get)
      = writeSize order join ++ writeSize order leave ++ writeSize order put ++ writeSize order get ++
          join ++ leave ++ put ++ get := rfl
    _ = piece body 0 16 ++ join ++ leave ++ put ++ get := by
        rw [joinSize,leaveSize,putSize,getSize,piece_append body 0 4 4,piece_append body 0 8 4,
          piece_append body 0 12 4]
    _ = piece body 0 (16 + join.length + leave.length + put.length + get.length) := by
        rw [next_piece body join 16 joinText,next_piece body leave _ leaveText,next_piece body put _ putText,
          next_piece body get _ getText]
    _ = body := by rw [total,piece_all]

theorem start_bytes (order : ByteOrder) (header : MessageHeader) (body : Bytes) (message : Message)
    (opcode : header.opcode = Opcode.start) (whole : body.length = header.bodySize.toNat)
    (ok : readStart order header body = .ok message) : Faithful order header body message := by
  unfold readStart at ok
  obtain ⟨duration,durationFits,durationBytes,_,ok⟩ := readNumber_ok order body 0 4 (by decide) _ message ok
  obtain ⟨entry,entryFits,entryBytes,_,ok⟩ := readNumber_ok order body 4 2 (by decide) _ message ok
  obtain ⟨self,selfFits,selfBytes,long,ok⟩ := readNumber_ok order body 6 2 (by decide) _ message ok
  obtain ⟨host,copied,ok⟩ := bind_ok ok
  cases ok
  have text : host = piece body 8 (body.length - 8) := by
    rw [copyText_eq,if_neg (by omega),if_pos (by omega)] at copied
    cases copied
    congr 1
    omega
  refine ⟨opcode.symm,?_⟩
  have number1 : (UInt32.ofNat duration).toNat = duration := UInt32.toNat_ofNat_of_lt' durationFits
  have number2 : (UInt16.ofNat entry).toNat = entry := UInt16.toNat_ofNat_of_lt' entryFits
  have number3 : (UInt16.ofNat self).toNat = self := UInt16.toNat_ofNat_of_lt' selfFits
  have all := piece_all body
  rw [Message.body,number1,number2,number3,durationBytes,entryBytes,selfBytes,piece_append body 0 4 2,
    piece_append body 0 6 2,text,piece_append body 0 8]
  rwa [Nat.add_sub_cancel' long]

theorem report_bytes (order : ByteOrder) (header : MessageHeader) (body : Bytes) (message : Message)
    (opcode : header.opcode = Opcode.report) (ok : readReport header body = .ok message) :
    Faithful order header body message := by
  unfold readReport at ok
  split at ok
  next => cases ok
  next separator value found =>
    obtain ⟨_,_,ok⟩ := bind_ok ok
    cases ok
    obtain rfl := separator_space body separator value found
    refine ⟨opcode.symm,?_⟩
    rw [Message.body,List.append_assoc,List.singleton_append,← found]
    exact List.takeWhile_append_dropWhile

theorem fromBits_faithful (order : ByteOrder) (header : MessageHeader) (body : Bytes) (message : Message)
    (whole : body.length = header.bodySize.toNat) (ok : fromBits order header body = .ok message) :
    Faithful order header body message := by
  unfold fromBits at ok
  split at ok
  next opcode =>
    obtain ⟨type,copied,ok⟩ := bind_ok ok
    cases ok
    unfold copy at copied
    rw [if_pos (Or.inr (by omega))] at copied
    cases copied
    exact ⟨opcode.symm,by rw [Message.body,List.drop_zero,← whole,List.take_length]⟩
  split at ok
  next opcode => exact profile_bytes order header body message opcode whole ok
  split at ok
  next opcode => exact start_bytes order header body message opcode whole ok
  split at ok
  next opcode => exact report_bytes order header body message opcode ok
  split at ok
  next opcode =>
    obtain ⟨_,checked,ok⟩ := bind_ok ok
    cases ok
    unfold ensure at checked
    split at checked
    next empty =>
      have none : header.bodySize = 0 := beq_iff_eq.mp empty
      rw [none] at whole
      exact ⟨opcode.symm,(List.length_eq_zero_iff.mp whole).symm⟩
    next => cases checked
  next => cases ok

structure Frame (order : ByteOrder) (head body : Bytes) (message : Message) : Prop where
  size : head.length = headerSize
  whole : body.length = (MessageHeader.read order head).bodySize.toNat
  built : fromBits order (MessageHeader.read order head) body = .ok message

theorem Frame.bits {order : ByteOrder} {head body : Bytes} {message : Message}
    (frame : Frame order head body message) : message.toBits order = .ok (head ++ body) := by
  obtain ⟨size,whole,built⟩ := frame
  obtain ⟨opcode,same⟩ := fromBits_faithful order _ body message whole built
  have fits : (message.body order).length < 2^32 := by
    rw [same,whole]
    exact UInt32.toNat_lt _
  have header : message.header order = MessageHeader.read order head := by
    rw [Message.header,opcode,same,whole,UInt32.ofNat_toNat]
  rw [toBits,if_pos fits,Message.bits,header,same,MessageHeader.write_read order head size]
  rfl

/-- A message that was decoded is encoded to the bytes it was decoded from. So no byte that
was received is ignored, and no other frame is decoded to the same message. -/
theorem toBits_fromBits (order : ByteOrder) (head body : Bytes) (message : Message)
    (frame : Frame order head body message) :
    message.toBits order = .ok (head ++ body) ∧
      ∀ other rest, Frame order other rest message → other = head ∧ rest = body := by
  refine ⟨frame.bits,fun other rest again => ?_⟩
  have same := again.bits.symm.trans frame.bits
  exact List.append_inj (Except.ok.inj same) (again.size.trans frame.size.symm)

theorem profile_frame :
    (Message.profile (ascii "now 1") [] (ascii "none") (ascii "exact 2 k")).toBits .little = .ok
      ([2,0,0,0, 34,0,0,0] ++ ([5,0,0,0, 0,0,0,0, 4,0,0,0, 9,0,0,0] ++ ascii "now 1noneexact 2 k")) :=
  (toBits_fromBits .little [2,0,0,0, 34,0,0,0] _ _ ⟨rfl,rfl,by decide +kernel⟩).1

end Message
end Dhtperf
