import Asyncmsg.Delivery

namespace Asyncmsg

namespace Connection

/-- The packets that `decode_packet` yields to `process_packet`. -/
def decodes (c : Connection) : List Packet :=
  match _ : decodePacket c.receiver.seqGenerator c.recvBuffer.pending with
  | none => []
  | some ⟨none, _, _⟩ => []
  | some ⟨some pack, consumeLen, seqGenerator⟩ =>
    pack :: match ({ c.receiver with seqGenerator := seqGenerator } : Receiver).handle pack with
      | (_, false) => []
      | (receiver, true) => decodes ⟨receiver, c.recvBuffer.consume consumeLen⟩
termination_by c.recvBuffer.size
decreasing_by
  have bound := decodePacket_consumeLen ‹_›
  simp only [IoBuffer.pending, List.length_take, headerLength] at bound
  exact IoBuffer.size_consume_lt (by omega) (by omega)

variable {c : Connection} {consumeLen : Nat} {seqGenerator : UInt32} {pack : Packet} {receiver : Receiver}

theorem decodes_of_none
    (decoded : decodePacket c.receiver.seqGenerator c.recvBuffer.pending = some ⟨none, consumeLen, seqGenerator⟩) :
    c.decodes = [] := by
  rw [decodes]
  split <;> simp_all

theorem decodes_of_closed
    (decoded : decodePacket c.receiver.seqGenerator c.recvBuffer.pending = some ⟨some pack, consumeLen, seqGenerator⟩)
    (handled : ({ c.receiver with seqGenerator := seqGenerator } : Receiver).handle pack = (receiver, false)) :
    c.decodes = [pack] := by
  rw [decodes]
  split <;> simp_all

theorem decodes_of_live
    (decoded : decodePacket c.receiver.seqGenerator c.recvBuffer.pending = some ⟨some pack, consumeLen, seqGenerator⟩)
    (handled : ({ c.receiver with seqGenerator := seqGenerator } : Receiver).handle pack = (receiver, true)) :
    c.decodes = pack :: (⟨receiver, c.recvBuffer.consume consumeLen⟩ : Connection).decodes := by
  rw [decodes]
  split <;> simp_all

/-- What `process_packet` has decoded is what the decoder has yielded. -/
theorem processPacket_decodes {last : Connection} {live : Bool} (run : c.processPacket = some (last, live)) :
    last.receiver.decodedPackets = c.receiver.decodedPackets ++ c.decodes := by
  fun_induction processPacket c with
  | case1 => cases run
  | case2 c consumeLen seqGenerator decoded =>
    cases run
    rw [decodes_of_none decoded, List.append_nil]
    rfl
  | case3 c pack consumeLen seqGenerator decoded receiver closed =>
    cases run
    have one := Receiver.decodedPackets_handle { c.receiver with seqGenerator := seqGenerator } pack
    rw [closed] at one
    rw [decodes_of_closed decoded closed]
    exact one
  | case4 c pack consumeLen seqGenerator decoded receiver handled ih =>
    have one := Receiver.decodedPackets_handle { c.receiver with seqGenerator := seqGenerator } pack
    rw [handled] at one
    rw [ih run, decodes_of_live decoded handled, ← List.singleton_append, ← List.append_assoc]
    exact congrArg (· ++ _) one

/-- The same at the head of an iteration, where only a full buffer is processed. -/
def headDecodes (c : Connection) : List Packet := if c.sizeToRead = 0 then c.decodes else []

theorem suspend_decodes (c : Connection) : c.suspend.conn.receiver.decodedPackets = c.receiver.decodedPackets := by
  unfold suspend
  split
  · exact c.receiver.decodedPackets_disconnect
  · rfl

theorem loopHead_decodes {l : ReceiveLoop} (head : c.loopHead = some l) :
    l.conn.receiver.decodedPackets = c.receiver.decodedPackets ++ c.headDecodes := by
  unfold loopHead at head
  unfold headDecodes
  split at head
  · obtain ⟨⟨last, live⟩, run, rfl⟩ := Option.map_eq_some_iff.mp head
    rw [if_pos ‹_›, ← processPacket_decodes run]
    cases live with
    | true => exact suspend_decodes last
    | false => exact last.receiver.decodedPackets_disconnect
  · cases head
    rw [if_neg ‹_›, List.append_nil]
    exact suspend_decodes c

end Connection

namespace ReceiveLoop
variable {l next last : ReceiveLoop} {slab : Slab} {results : List ReadResult}

/-- The packets that the decoder yields behind a read. -/
def resumeDecodes (l : ReceiveLoop) (slab : Slab) : ReadResult → List Packet
  | .done bs =>
    if 0 < bs.length then
      let c : Connection := { l.conn with recvBuffer := (l.conn.recvBuffer.fill slab bs).commit bs.length }
      c.decodes ++ match c.processPacket with
        | some (last, true) => last.headDecodes
        | _ => []
    else l.conn.headDecodes
  | _ => []

/-- The packets that the decoder yields while reads complete one after the other. -/
def decodes (l : ReceiveLoop) : List ReadResult → List Packet
  | [] => []
  | result :: results => (l.slab.elim [] fun slab => l.resumeDecodes slab result) ++
      (l.complete result).elim [] fun next => next.decodes results

theorem resume_decodes {result : ReadResult} (taken : l.resume slab result = some next) :
    next.conn.receiver.decodedPackets = l.conn.receiver.decodedPackets ++ l.resumeDecodes slab result := by
  cases result with
  | expired =>
    cases taken
    exact (List.append_nil _).symm
  | failed =>
    cases taken
    exact l.conn.receiver.decodedPackets_disconnect.trans (List.append_nil _).symm
  | done bs =>
    simp only [resume] at taken
    simp only [resumeDecodes]
    split at taken
    · obtain ⟨⟨last, live⟩, run, taken⟩ := Option.bind_eq_some_iff.mp taken
      have processed := Connection.processPacket_decodes run
      rw [if_pos ‹_›, run, ← List.append_assoc]
      cases live with
      | true => exact (Connection.loopHead_decodes taken).trans (congrArg (· ++ _) processed)
      | false =>
        cases taken
        exact (last.receiver.decodedPackets_disconnect.trans processed).trans (List.append_nil _).symm
    · rw [if_neg ‹_›]
      exact Connection.loopHead_decodes taken

theorem completeAll_decodes (run : l.completeAll results = some last) :
    last.conn.receiver.decodedPackets = l.conn.receiver.decodedPackets ++ l.decodes results := by
  induction results generalizing l with
  | nil =>
    cases run
    exact (List.append_nil _).symm
  | cons result results ih =>
    obtain ⟨next, taken, rest⟩ := Option.bind_eq_some_iff.mp run
    rw [ih rest, decodes, taken, ← List.append_assoc]
    congr 1
    rcases l with ⟨conn, _ | slab⟩
    · cases taken
      exact (List.append_nil _).symm
    · exact resume_decodes taken

/-- Nothing is decoded before the first read. -/
theorem start_decodes {seqGenerator : UInt32} (started : start seqGenerator = some l) :
    l.conn.receiver.decodedPackets = [] := by
  have free : (IoBuffer.ofSize Connection.recvBufSize).freeSize = Connection.recvBufSize := by
    rw [IoBuffer.freeSize, IoBuffer.ofSize_length]
    rfl
  have positive : 0 < Connection.recvBufSize := by decide
  have room : Connection.sizeToRead ⟨⟨seqGenerator, [], []⟩, .ofSize Connection.recvBufSize⟩ ≠ 0 := by
    rw [Connection.sizeToRead, if_pos (free.symm ▸ positive), free]
    exact positive.ne'
  rw [Connection.loopHead_decodes started, Connection.headDecodes, if_neg room]
  rfl

end ReceiveLoop
end Asyncmsg
