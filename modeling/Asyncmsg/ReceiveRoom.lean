import Asyncmsg.Receive

namespace Asyncmsg

theorem IoBuffer.consume_tail (b : IoBuffer) (n : Nat) :
    (b.consume n).tail ≤ b.tail ∧ (b.consume n).length = b.length := by
  unfold IoBuffer.consume
  split
  · exact ⟨Nat.zero_le _, rfl⟩
  · exact ⟨le_rfl, rfl⟩

/-- Processing only ever moves the tail back. -/
theorem Connection.processPacket_tail {c last : Connection} {live : Bool}
    (run : c.processPacket = some (last, live)) :
    last.recvBuffer.tail ≤ c.recvBuffer.tail ∧ last.recvBuffer.length = c.recvBuffer.length := by
  fun_induction processPacket c with
  | case1 => cases run
  | case2 =>
    cases run
    exact IoBuffer.consume_tail _ _
  | case3 =>
    cases run
    exact IoBuffer.consume_tail _ _
  | case4 c pack consumeLen gen' _ receiver _ ih =>
    obtain ⟨tail, length⟩ := ih run
    obtain ⟨before, same⟩ := IoBuffer.consume_tail c.recvBuffer consumeLen
    exact ⟨tail.trans before, length.trans same⟩

namespace ReceiveLoop

/-- As long as fewer bytes have arrived than the buffer holds, the loop offers
all the room that they have left. -/
def Roomy (l : ReceiveLoop) (received : Nat) : Prop :=
  ∀ slab, l.slab = some slab → received < Connection.recvBufSize →
    l.conn.recvBuffer.length = Connection.recvBufSize ∧ slab.data = l.conn.recvBuffer.tail ∧
      slab.data ≤ received ∧ Connection.recvBufSize ≤ slab.size + received

theorem suspend_roomy {c : Connection} {received : Nat} (length : c.recvBuffer.length = Connection.recvBufSize)
    (tail : c.recvBuffer.tail ≤ received) : c.suspend.Roomy received := by
  intro slab offered few
  have free : 0 < c.recvBuffer.freeSize := by
    rw [IoBuffer.freeSize]
    omega
  have size : c.sizeToRead = c.recvBuffer.freeSize := if_pos free
  have within : c.recvBuffer.freeSize ≤ c.recvBuffer.capacity := by
    simp only [IoBuffer.freeSize, IoBuffer.capacity, IoBuffer.size]
    omega
  rw [Connection.suspend, if_neg (by omega)] at offered ⊢
  simp only [IoBuffer.prepare, size, lt_irrefl, if_false, Nat.min_eq_left within] at offered ⊢
  cases offered
  simp only [IoBuffer.freeSize, length]
  exact ⟨trivial, trivial, tail, by omega⟩

theorem loopHead_roomy {c : Connection} {l : ReceiveLoop} {received : Nat}
    (length : c.recvBuffer.length = Connection.recvBufSize) (tail : c.recvBuffer.tail ≤ received)
    (head : c.loopHead = some l) : l.Roomy received := by
  unfold Connection.loopHead at head
  split at head
  · obtain ⟨⟨last, live⟩, run, rfl⟩ := Option.map_eq_some_iff.mp head
    obtain ⟨back, same⟩ := Connection.processPacket_tail run
    cases live with
    | true => exact suspend_roomy (same.trans length) (back.trans tail)
    | false => exact fun slab none => by cases none
  · cases head
    exact suspend_roomy length tail

theorem read_roomy {l next : ReceiveLoop} {received : Nat} {bs : List UInt8} (roomy : l.Roomy received)
    (taken : l.read bs = some next) : next.Roomy (received + bs.length) := by
  intro slab' offered' few'
  rcases l with ⟨conn, _ | slab⟩
  · cases taken
    cases offered'
  · obtain ⟨length, data, before, room⟩ := roomy slab rfl (by omega)
    simp only at length data
    simp only [read, resume] at taken
    split at taken
    · obtain ⟨⟨last, live⟩, run, head⟩ := Option.bind_eq_some_iff.mp taken
      obtain ⟨back, same⟩ := Connection.processPacket_tail run
      have filled := @IoBuffer.length_fill conn.recvBuffer slab bs (by omega)
      have moved : last.recvBuffer.tail ≤ received + bs.length :=
        back.trans (Nat.add_le_add_right (data ▸ before) _)
      cases live with
      | true => exact loopHead_roomy (same.trans (filled.trans length)) moved head slab' offered' few'
      | false =>
        cases head
        cases offered'
    · exact loopHead_roomy length (by omega) taken slab' offered' few'

theorem fits_of_roomy {l : ReceiveLoop} {received : Nat} {reads : List (List UInt8)} (roomy : l.Roomy received)
    (few : received + reads.flatten.length ≤ Connection.recvBufSize) : l.Fits reads := by
  induction reads generalizing l received with
  | nil => trivial
  | cons bs reads ih =>
    rw [List.flatten_cons, List.length_append, ← Nat.add_assoc] at few
    refine ⟨fun slab offered => ?_, fun next taken => ih (read_roomy roomy taken) few⟩
    by_cases full : received < Connection.recvBufSize
    · have room := (roomy slab offered full).2.2.2
      omega
    · omega

end ReceiveLoop

/-- However a stream of at most the size of the buffer is cut, its reads fit. -/
theorem fittingReads_of_length_le {seqGenerator : UInt32} {reads : List (List UInt8)}
    (few : reads.flatten.length ≤ Connection.recvBufSize) : FittingReads seqGenerator reads :=
  fun _ started => ReceiveLoop.fits_of_roomy
    (ReceiveLoop.loopHead_roomy (IoBuffer.ofSize_length _) (Nat.zero_le 0) started) (by omega)

end Asyncmsg
