import Dhtperf.ControllerConnection

/-! A connection that waits for another message after each one cuts the stream it reads
at the ends of the messages, wherever the network cut it. -/
namespace Dhtperf
open Library

namespace ControllerConnection
variable (order : ByteOrder)

/-- The connection is in the middle of a message of which `rest` is still to come. -/
inductive Midway (c : ControllerConnection) (message : Message) (rest : Bytes) : Prop
  | header (got : Bytes) (reads : c.reads = [.header got]) (short : got.length < headerSize)
      (split : got ++ rest = message.bits order)
  | body (got : Bytes) (reads : c.reads = [.body got]) (header : c.headerBuffer = message.header order)
      (some : rest ≠ []) (split : got ++ rest = message.body order)

theorem waiting_midway (c : ControllerConnection) (message : Message) (waiting : c.reads = [.header []]) :
    Midway order c message (message.bits order) :=
  .header [] waiting (by decide) (List.nil_append _)

theorem handleMessage_complete (c : ControllerConnection) (message : Message)
    (fits : (message.body order).length < 2^32) (plain : message.Plain)
    (header : c.headerBuffer = message.header order)
    (holds : message.body order ≠ [] → c.bodyBuffer = message.body order) :
    c.handleMessage order =
      if message.Sized then .ok (c,some message) else .error (.decode .lengthError) := by
  unfold handleMessage
  rw [header,Message.fromBits_body order message c.bodyBuffer fits plain holds]
  by_cases sized : message.Sized
  · rw [if_pos sized,if_pos sized]
    rfl
  · rw [if_neg sized,if_neg sized]
    rfl

/-- What the last byte of a message comes to. -/
def Delivers (c : ControllerConnection) (message : Message) (byte : UInt8) : Prop :=
  if message.Sized then
    ∃ after, c.receive order true byte = .ok (after,some message) ∧ ReadOnly c after byte ∧ after.reads = []
  else c.receive order true byte = .error (.decode .lengthError)

theorem handled_delivers (c d : ControllerConnection) (message : Message) (byte : UInt8)
    (fits : (message.body order).length < 2^32) (plain : message.Plain) (same : ReadOnly c d byte)
    (idle : d.reads = []) (header : d.headerBuffer = message.header order)
    (holds : message.body order ≠ [] → d.bodyBuffer = message.body order)
    (read : c.receive order true byte = d.handleMessage order) : Delivers order c message byte := by
  rw [handleMessage_complete order d message fits plain header holds] at read
  unfold Delivers
  by_cases sized : message.Sized
  · rw [if_pos sized] at read ⊢
    exact ⟨d,read,same,idle⟩
  · rw [if_neg sized] at read ⊢
    exact read

theorem receive_header (c : ControllerConnection) (message : Message) (byte : UInt8) (rest got : Bytes)
    (reads : c.reads = [.header got]) (short : got.length < headerSize)
    (split : got ++ byte :: rest = message.bits order) (fits : (message.body order).length < 2^32)
    (plain : message.Plain) :
    (∃ after, c.receive order true byte = .ok (after,none) ∧ ReadOnly c after byte ∧
      Midway order after message rest) ∨ rest = [] ∧ Delivers order c message byte := by
  have size := MessageHeader.write_length order (message.header order)
  have bodySize := Message.header_size order message fits
  have shape : got ++ [byte] ++ rest = (message.header order).write order ++ message.body order := by
    simpa [Message.bits] using split
  by_cases more : (got ++ [byte]).length < headerSize
  · refine Or.inl ⟨_,by simp only [receive,reads]; exact if_pos more,⟨_,_,_,rfl⟩,?_⟩
    exact .header (got ++ [byte]) rfl more shape
  · -- The header is complete.
    have length : (got ++ [byte]).length = ((message.header order).write order).length := by
      simp only [List.length_append,List.length_singleton] at more ⊢
      omega
    obtain ⟨whole,left⟩ := List.append_inj shape length
    have read : c.receive order true byte = handleHeaderRead order true
        {c with taken := c.taken ++ [byte], reads := [], headerBuffer := message.header order} := by
      simp only [receive,reads]
      rw [if_neg more,whole,MessageHeader.read_write]
    by_cases empty : message.body order = []
    · have zero : (message.header order).bodySize = 0 :=
        UInt32.toNat_inj.mp (by rw [bodySize,empty]; rfl)
      have none : ¬(message.header order).bodySize > 0 := by rw [zero]; decide
      simp only [handleHeaderRead,not_true,if_false,none] at read
      refine Or.inr ⟨left.trans empty,?_⟩
      exact handled_delivers order c _ message byte fits plain ⟨_,_,_,rfl⟩ rfl rfl (fun some => absurd empty some) read
    · have some : (message.header order).bodySize > 0 := by
        rw [gt_iff_lt,UInt32.lt_iff_toNat_lt,bodySize]
        exact List.length_pos_iff.mpr empty
      have begun : c.receive order true byte = .ok ({c with
          taken := c.taken ++ [byte]
          headerBuffer := message.header order
          bodyBuffer := resize c.bodyBuffer (message.header order).bodySize.toNat
          reads := [.body []]},none) := by
        rw [read]
        simp only [handleHeaderRead,not_true,if_false,some,if_true]
        rfl
      refine Or.inl ⟨_,begun,⟨_,_,_,rfl⟩,?_⟩
      exact .body [] rfl rfl (by rw [left]; exact empty) (by rw [left]; rfl)

theorem receive_body (c : ControllerConnection) (message : Message) (byte : UInt8) (rest got : Bytes)
    (reads : c.reads = [.body got]) (header : c.headerBuffer = message.header order)
    (split : got ++ byte :: rest = message.body order) (fits : (message.body order).length < 2^32)
    (plain : message.Plain) :
    (∃ after, c.receive order true byte = .ok (after,none) ∧ ReadOnly c after byte ∧
      Midway order after message rest) ∨ rest = [] ∧ Delivers order c message byte := by
  have shape : got ++ [byte] ++ rest = message.body order := by simpa using split
  have total : (got ++ [byte]).length + rest.length = c.headerBuffer.bodySize.toNat := by
    rw [header,Message.header_size order message fits,← shape]
    exact List.length_append.symm
  by_cases more : rest = []
  · subst more
    simp only [List.length_nil,Nat.add_zero,List.append_nil] at total shape
    have read : c.receive order true byte = handleBodyRead order
        {c with taken := c.taken ++ [byte], reads := [], bodyBuffer := got ++ [byte]} := by
      simp only [receive,reads]
      exact if_neg (by omega)
    exact Or.inr ⟨rfl,handled_delivers order c _ message byte fits plain ⟨_,_,_,rfl⟩ rfl header (fun _ => shape) read⟩
  · have left := List.length_pos_iff.mpr more
    refine Or.inl ⟨_,by simp only [receive,reads]; exact if_pos (by omega),⟨_,_,_,rfl⟩,?_⟩
    exact .body (got ++ [byte]) rfl header more shape

theorem receive_midway (c : ControllerConnection) (message : Message) (byte : UInt8) (rest : Bytes)
    (midway : Midway order c message (byte :: rest)) (fits : (message.body order).length < 2^32)
    (plain : message.Plain) :
    (∃ after, c.receive order true byte = .ok (after,none) ∧ ReadOnly c after byte ∧
      Midway order after message rest) ∨ rest = [] ∧ Delivers order c message byte := by
  cases midway with
  | header got reads short split => exact receive_header order c message byte rest got reads short split fits plain
  | body got reads header some split => exact receive_body order c message byte rest got reads header split fits plain

theorem midway_rest (c : ControllerConnection) (message : Message) (rest : Bytes)
    (midway : Midway order c message rest) : rest ≠ [] := by
  rintro rfl
  cases midway with
  | header got reads short split =>
    have long := congrArg List.length split
    simp only [List.append_nil,Message.bits,List.length_append,MessageHeader.write_length] at long
    omega
  | body got reads header some split => exact some rfl

theorem midway_length (c : ControllerConnection) (message : Message) (rest : Bytes)
    (midway : Midway order c message rest) : rest.length ≤ (message.bits order).length := by
  cases midway with
  | header got reads short split =>
    rw [← split,List.length_append]
    omega
  | body got reads header some split =>
    rw [Message.bits,← split,List.length_append,List.length_append]
    omega

/-! ### The whole stream -/

/-- A byte for a connection whose message handler waits for the next message. -/
def listen (c : ControllerConnection) (byte : UInt8) : Except Abort (ControllerConnection × List Message) := do
  let (c,message) ← c.receive order true byte
  match message with
  | none => pure (c,[])
  | some message => pure (c.asyncWaitForMessage,[message])

theorem listen_message (c : ControllerConnection) (message : Message) (rest : Bytes) (more : rest ≠ [])
    (midway : Midway order c message rest) (fits : (message.body order).length < 2^32)
    (plain : message.Plain) (sized : message.Sized) :
    ∃ after, feedAll (listen order) c rest = .ok (after,[message]) ∧ after.reads = [.header []] := by
  induction rest generalizing c with
  | nil => contradiction
  | cons byte rest ih =>
    rcases receive_midway order c message byte rest midway fits plain with ⟨after,read,_,closer⟩ | ⟨last,complete⟩
    · have here : listen order c byte = .ok (after,[]) := by
        simp only [listen,read]
        rfl
      have some := midway_rest order after message rest closer
      obtain ⟨final,later,waiting⟩ := ih after some closer
      exact ⟨final,feedAll_cons (listen order) c after final byte rest [] [message] here later,waiting⟩
    · subst last
      rw [Delivers,if_pos sized] at complete
      obtain ⟨after,read,_,idle⟩ := complete
      have here : listen order c byte = .ok (after.asyncWaitForMessage,[message]) := by
        simp only [listen,read]
        rfl
      refine ⟨after.asyncWaitForMessage,feedAll_cons (listen order) c _ _ byte [] [message] [] here rfl,?_⟩
      simp only [asyncWaitForMessage,idle,List.nil_append]

theorem listen_messages (c : ControllerConnection) (messages : List Message) (waiting : c.reads = [.header []])
    (fits : ∀ m ∈ messages, (m.body order).length < 2^32) (plain : ∀ m ∈ messages, m.Plain)
    (sized : ∀ m ∈ messages, m.Sized) :
    ∃ after, feedAll (listen order) c (messages.flatMap (Message.bits order)) = .ok (after,messages) ∧
      after.reads = [.header []] := by
  induction messages generalizing c with
  | nil => exact ⟨c,rfl,waiting⟩
  | cons m messages ih =>
    have some := Message.bits_ne_nil order m
    obtain ⟨next,here,again⟩ := listen_message order c m _ some (waiting_midway order c m waiting)
      (fits m (by simp)) (plain m (by simp)) (sized m (by simp))
    obtain ⟨after,later,final⟩ := ih next again (fun x inside => fits x (by simp [inside]))
      (fun x inside => plain x (by simp [inside])) (fun x inside => sized x (by simp [inside]))
    exact ⟨after,feedAll_append_ok (listen order) c next after _ _ [m] messages here later,final⟩

/-! ### A script -/

/-- The connection is being read and has delivered the messages `heard` of a script. -/
inductive Hearing (script heard : List Message) (c : ControllerConnection) : Prop
  | between (waiting : c.reads = [.header []]) (taken : c.taken = heard.flatMap (Message.bits order))
  | midway (message : Message) (rest : Bytes) (partly : Midway order c message rest)
      (taken : c.taken ++ rest = (heard ++ [message]).flatMap (Message.bits order))
      (next : heard ++ [message] <+: script)

theorem Hearing.congr (script heard : List Message) (c d : ControllerConnection) (reads : d.reads = c.reads)
    (header : d.headerBuffer = c.headerBuffer) (taken : d.taken = c.taken)
    (hearing : Hearing order script heard c) : Hearing order script heard d := by
  cases hearing with
  | between waiting whole => exact .between (reads.trans waiting) (taken.trans whole)
  | midway message rest partly split next =>
    refine .midway message rest ?_ (by rw [taken]; exact split) next
    cases partly with
    | header got pending short split => exact .header got (reads.trans pending) short split
    | body got pending shape some split => exact .body got (reads.trans pending) (header.trans shape) some split

theorem arrived_whole (heard : List Message) (c : ControllerConnection)
    (taken : c.taken = heard.flatMap (Message.bits order)) : heard.flatMap (Message.bits order) <+: c.taken ∧
      ∀ message, c.taken.length < ((heard ++ [message]).flatMap (Message.bits order)).length := by
  refine ⟨taken ▸ List.prefix_rfl,fun message => ?_⟩
  have some := List.length_pos_iff.mpr (Message.bits_ne_nil order message)
  rw [taken,List.flatMap_append,List.flatMap_singleton,List.length_append]
  omega

theorem Hearing.arrived (script heard : List Message) (c : ControllerConnection)
    (hearing : Hearing order script heard c) : heard.flatMap (Message.bits order) <+: c.taken ∧
      ∀ message, heard ++ [message] <+: script →
        c.taken.length < ((heard ++ [message]).flatMap (Message.bits order)).length := by
  cases hearing with
  | between waiting taken =>
    have whole := arrived_whole order heard c taken
    exact ⟨whole.1,fun message _ => whole.2 message⟩
  | midway message rest partly taken next =>
    have some := List.length_pos_iff.mpr (midway_rest order c message rest partly)
    constructor
    · have less := midway_length order c message rest partly
      have total := congrArg List.length taken
      rw [List.flatMap_append,List.flatMap_singleton] at taken
      rw [List.flatMap_append,List.flatMap_singleton,List.length_append,List.length_append] at total
      exact List.prefix_of_prefix_length_le ⟨_,rfl⟩ ⟨rest,taken⟩ (by omega)
    · intro other following
      have same : heard ++ [other] = heard ++ [message] :=
        (List.prefix_of_prefix_length_le following next (by simp)).eq_of_length (by simp)
      rw [same,← taken,List.length_append]
      omega

theorem receive_hearing (script heard : List Message) (c : ControllerConnection) (byte : UInt8)
    (fits : ∀ m ∈ script, (m.body order).length < 2^32) (plain : ∀ m ∈ script, m.Plain)
    (sized : ∀ m ∈ script, m.Sized) (known : heard <+: script) (hearing : Hearing order script heard c)
    (spoken : (script.flatMap (Message.bits order))[c.taken.length]? = some byte) :
    (∃ after, c.receive order true byte = .ok (after,none) ∧ Hearing order script heard after) ∨
      ∃ message after, heard ++ [message] <+: script ∧ c.receive order true byte = .ok (after,some message) ∧
        after.reads = [] ∧ after.taken = (heard ++ [message]).flatMap (Message.bits order) := by
  -- The next message of the script and what is left of it.
  obtain ⟨message,rest,partly,taken,next⟩ : ∃ message rest, Midway order c message (byte :: rest) ∧
      c.taken ++ (byte :: rest) = (heard ++ [message]).flatMap (Message.bits order) ∧
      heard ++ [message] <+: script := by
    cases hearing with
    | between waiting taken =>
      obtain ⟨others,rfl⟩ := known
      rw [List.flatMap_append,← taken,List.getElem?_append_right (Nat.le_refl _),Nat.sub_self] at spoken
      cases others with
      | nil => cases spoken
      | cons message others =>
        obtain ⟨first,rest,shape⟩ := List.exists_cons_of_ne_nil (Message.bits_ne_nil order message)
        rw [List.flatMap_cons,shape] at spoken
        cases spoken
        refine ⟨message,rest,shape ▸ waiting_midway order c message waiting,?_,?_⟩
        · rw [List.flatMap_append,List.flatMap_singleton,← taken,shape]
        · exact ⟨others,by simp⟩
    | midway message rest partly taken next =>
      obtain ⟨others,rfl⟩ := next
      obtain ⟨first,rest,rfl⟩ := List.exists_cons_of_ne_nil (midway_rest order c message rest partly)
      rw [List.flatMap_append,← taken,List.append_assoc,List.getElem?_append_right (Nat.le_refl _),
        Nat.sub_self] at spoken
      cases spoken
      exact ⟨message,rest,partly,taken,⟨others,rfl⟩⟩
  have member : message ∈ script := next.subset (List.mem_append_right heard (List.mem_singleton.mpr rfl))
  rcases receive_midway order c message byte rest partly (fits message member) (plain message member)
    with ⟨after,read,⟨header,body,reads,rfl⟩,closer⟩ | ⟨rfl,complete⟩
  · exact Or.inl ⟨_,read,.midway message rest closer (by simpa using taken) next⟩
  · rw [Delivers,if_pos (sized message member)] at complete
    obtain ⟨after,read,⟨header,body,reads,rfl⟩,idle⟩ := complete
    exact Or.inr ⟨message,_,next,read,idle,taken⟩

theorem receive_unreachable (c : ControllerConnection) (byte : UInt8) (reachable : Bool) :
    c.receive order reachable byte = c.receive order true byte ∨
      c.receive order reachable byte = .error .lookup := by
  cases reachable with
  | true => exact Or.inl rfl
  | false =>
    unfold receive
    dsimp only
    split
    next => exact Or.inl rfl
    next =>
      split
      next => exact Or.inl rfl
      next => exact Or.inr rfl
    next => exact Or.inl rfl

theorem sized_of_small (message : Message) (small : (message.body order).length < 2^31) : message.Sized := by
  cases message with
  | profile join leave put get =>
    simp only [Message.body,List.length_append,Message.writeSize_length] at small
    exact ⟨by omega,by omega,by omega,by omega⟩
  | _ => trivial

/-- However the bits of a sequence of messages are cut into chunks, a waiting connection
delivers exactly these messages and waits again at the start of a header. -/
theorem listen_chunks (messages : List Message) (small : ∀ m ∈ messages, (m.body order).length < 2^31)
    (plain : ∀ m ∈ messages, m.Plain) (bits : List Bytes)
    (written : messages.mapM (Message.toBits order) = .ok bits) (chunks : List Bytes)
    (cut : chunks.flatten = bits.flatten) (c : ControllerConnection) (waiting : c.reads = [.header []]) :
    ∃ after, feedChunks (listen order) c chunks = .ok (after,messages) ∧ after.reads = [.header []] := by
  rw [Message.toBits_all order messages fun m inside => by have := small m inside; omega] at written
  cases written
  rw [feedChunks_flatten,cut,← List.flatMap_def]
  exact listen_messages order c messages waiting (fun m inside => by have := small m inside; omega) plain
    (fun m inside => sized_of_small order m (small m inside))

def assorted : List Message :=
  [.report (ascii "GetLatency") (ascii "a b"),.dhtType [],.profile (ascii "now 0") [0] [] (ascii " "),
    .start 60 (ascii "10.0.0.1") 0 3,.finish,.dhtType (ascii "dummy")]

theorem assorted_listened :
    ∃ after, feedChunks (listen .little) (make 0 []).asyncWaitForMessage
        ((assorted.map (Message.bits .little)).flatten.map fun byte => [byte]) = .ok (after,assorted) ∧
      after.reads = [.header []] :=
  listen_chunks .little assorted (by decide) (by decide) (assorted.map (Message.bits .little))
    (Message.toBits_all .little assorted (by decide)) _ (by decide) _ rfl

end ControllerConnection
end Dhtperf
