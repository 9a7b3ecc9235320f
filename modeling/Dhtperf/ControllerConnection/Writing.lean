import Dhtperf.ControllerConnection

/-! What a socket has got, followed by what pending writes still hold, is everything that
was sent, as long as every chunk comes from the message it belongs to. -/
namespace Dhtperf
open Library

namespace ControllerConnection
variable (order : ByteOrder)

/-- The bits of the messages sent so far leave in their order. -/
structure InOrder (c : ControllerConnection) : Prop where
  fits : ∀ m ∈ c.sent, (m.body order).length < 2^32
  split : c.received ++ c.untransmitted = c.sent.flatMap (Message.bits order)

theorem make_inOrder (descriptor : Descriptor) (address : Bytes) : InOrder order (make descriptor address) where
  fits := fun m member => by simp [make] at member
  split := rfl

theorem untransmitted_sentWith (c : ControllerConnection) (message : Message) (bits : Bytes) (atOnce : Nat) :
    (c.sentWith message bits atOnce).untransmitted = c.untransmitted ++ bits.drop atOnce := by
  unfold untransmitted sentWith
  rw [List.flatMap_append]
  split
  next => simp
  next whole => simp [List.drop_eq_nil_of_le (Nat.not_lt.mp whole)]

theorem immediate_ready (c : ControllerConnection) (atOnce : Nat) :
    c.writes = [] ∨ c.immediate .intact atOnce = 0 := by
  by_cases idle : c.writes = []
  · exact Or.inl idle
  · exact Or.inr (if_pos ⟨rfl,idle⟩)

theorem InOrder.send (c : ControllerConnection) (message : Message) (bits : Bytes) (atOnce : Nat)
    (written : message.toBits order = .ok bits) (ready : c.writes = [] ∨ atOnce = 0)
    (inOrder : InOrder order c) : InOrder order (c.sentWith message bits atOnce) := by
  obtain ⟨rfl,small⟩ := Message.toBits_bits order message bits written
  constructor
  · intro m member
    rcases List.mem_append.mp member with old | new
    · exact inOrder.fits m old
    · rw [List.mem_singleton.mp new]
      exact small
  · have split := inOrder.split
    rw [untransmitted_sentWith]
    change c.received ++ (message.bits order).take atOnce ++ _ = (c.sent ++ [message]).flatMap _
    rw [List.flatMap_append,List.flatMap_singleton,← split]
    rcases ready with idle | rfl
    · have nothing : c.untransmitted = [] := by rw [untransmitted,idle]; rfl
      simp [nothing]
    · simp

theorem InOrder.transmit (model : WriteModel) (c after : ControllerConnection) (count : Nat) (beyond : Bytes)
    (write : PendingWrite) (rest : List PendingWrite) (pending : c.writes = write :: rest)
    (genuine : c.chunk model write count beyond = (write.bits.drop write.transferred).take count)
    (ok : c.transmit model 0 count beyond = some after) (inOrder : InOrder order c) : InOrder order after := by
  unfold ControllerConnection.transmit at ok
  rw [pending,List.getElem?_cons_zero] at ok
  simp only at ok
  split at ok
  next fine =>
    cases ok
    refine ⟨inOrder.fits,?_⟩
    rw [← inOrder.split,genuine]
    unfold untransmitted
    rw [pending]
    have cut : (write.bits.drop write.transferred).take count ++ write.bits.drop (write.transferred + count) =
        write.bits.drop write.transferred := by
      rw [← List.drop_drop]
      exact List.take_append_drop count _
    split
    next =>
      rw [List.set_cons_zero,List.flatMap_cons,List.flatMap_cons,← List.append_assoc,
        List.append_assoc c.received,cut,List.append_assoc]
    next whole =>
      rw [List.drop_eq_nil_of_le (Nat.not_lt.mp whole),List.append_nil] at cut
      simp [cut]
  next => cases ok

theorem InOrder.transmit_intact (c after : ControllerConnection) (index count : Nat) (beyond : Bytes)
    (ok : c.transmit .intact index count beyond = some after) (inOrder : InOrder order c) :
    InOrder order after := by
  cases pending : c.writes with
  | nil => simp [ControllerConnection.transmit,pending] at ok
  | cons write rest =>
    have first : index = 0 := by
      unfold ControllerConnection.transmit at ok
      split at ok
      · cases ok
      · split at ok
        next fine => exact fine.2.2.2 rfl
        next => cases ok
    subst first
    exact inOrder.transmit order .intact c after count beyond write rest pending rfl ok

/-- At most one write is pending, and the buffer still holds its message. -/
def Alone (c : ControllerConnection) : Prop :=
  c.writes = [] ∨ ∃ transferred, c.writes = [⟨c.writeBuffer,transferred⟩]

theorem alone_sentWith (c : ControllerConnection) (message : Message) (bits : Bytes) (atOnce : Nat)
    (idle : c.writes = []) : Alone (c.sentWith message bits atOnce) := by
  unfold Alone sentWith
  rw [idle]
  split
  next => exact Or.inr ⟨atOnce,rfl⟩
  next => exact Or.inl rfl

theorem InOrder.transmit_alone (c after : ControllerConnection) (index count : Nat) (beyond : Bytes)
    (alone : Alone c) (ok : c.transmit .shared index count beyond = some after) (inOrder : InOrder order c) :
    InOrder order after ∧ Alone after := by
  rcases alone with idle | ⟨transferred,pending⟩
  · simp [ControllerConnection.transmit,idle] at ok
  · have shape := ok
    unfold ControllerConnection.transmit at shape
    cases index with
    | succ index => simp [pending] at shape
    | zero =>
      rw [pending,List.getElem?_cons_zero] at shape
      simp only at shape
      split at shape
      next fine =>
        have genuine : c.chunk .shared ⟨c.writeBuffer,transferred⟩ count beyond =
            (c.writeBuffer.drop transferred).take count :=
          List.take_append_of_le_length (by rw [List.length_drop]; exact Nat.le_sub_of_add_le' fine.2.1)
        refine ⟨inOrder.transmit order .shared c after count beyond _ [] pending genuine ok,?_⟩
        cases shape
        unfold Alone
        split
        next => exact Or.inr ⟨_,rfl⟩
        next => exact Or.inl rfl
      next => cases shape

end ControllerConnection
end Dhtperf
