import Asyncmsg.Receive

namespace Asyncmsg
open Scanning

/-- Every frame that the scanner cuts from the stream declares a device id that
stays inside the header's own field. -/
def ShortIds (stream : List UInt8) : Prop :=
  ∀ frame ∈ packetScanner.frames stream, ∀ header, HeaderAt frame header →
    header.deviceIdLen.toNat ≤ deviceIdSize

theorem ShortIds.of_append {xs ys : List UInt8} (short : ShortIds (xs ++ ys)) : ShortIds xs :=
  fun frame member => short frame (by
    rw [Scanner.frames_append]
    exact List.mem_append_left _ member)

theorem ShortIds.residue_append {xs ys : List UInt8} (short : ShortIds (xs ++ ys)) :
    ShortIds (packetScanner.residue xs ++ ys) :=
  fun frame member => short frame (by
    rw [Scanner.frames_append]
    exact List.mem_append_right _ member)

/-- Reading the packet of one frame that has been cut out. -/
def readFrame (seqGenerator : UInt32) (frame : List UInt8) : Option (Packet × UInt32) :=
  if whole : headerLength ≤ frame.length then readPacket seqGenerator frame whole else none

/-- The receiver as a consumer of frames. -/
def consumeFrame (r : Receiver) (frame : List UInt8) : Receiver × Bool :=
  match readFrame r.seqGenerator frame with
  | some (pack, seqGenerator) => ({ r with seqGenerator := seqGenerator } : Receiver).handle pack
  | none => (r, true)

theorem readPacket_append (seqGenerator : UInt32) {bs : List UInt8} {header : PacketHeader} (h : HeaderAt bs header)
    (id : PacketHeader.deviceIdOffset + header.deviceIdLen.toNat ≤ bs.length)
    (body : headerLength + header.bodyLen.toNat ≤ bs.length) (more : List UInt8)
    (longer : headerLength ≤ (bs ++ more).length) :
    readPacket seqGenerator (bs ++ more) longer = readPacket seqGenerator bs h.whole ∧
      (readPacket seqGenerator bs h.whole).isSome := by
  have rest : (bs ++ more).drop headerLength = bs.drop headerLength ++ more :=
    List.drop_append_of_le_length h.whole
  have copied : Ibuffer.copy header.bodyLen (bs.drop headerLength ++ more) =
      Ibuffer.copy header.bodyLen (bs.drop headerLength) := by
    ext1
    exact List.take_append_of_le_length (by rw [List.length_drop]; omega)
  have inside : ¬(bs ++ more).length < PacketHeader.deviceIdOffset + header.deviceIdLen.toNat := by
    rw [List.length_append]
    omega
  unfold readPacket
  simp only [PacketHeader.ofBytes_append h.whole, ← h.same, inside, not_lt.mpr id, if_false, rest, copied,
    slice_append id, Option.isSome_some, and_self]

/-- A packet is read from its own frame alone when its device id stays in the
header. -/
theorem readPacket_frame_only {bs : List UInt8} {size : Nat} (verdict : packetVerdict bs = .frame size)
    (short : ∀ header, HeaderAt (bs.take size) header → header.deviceIdLen.toNat ≤ deviceIdSize)
    (seqGenerator : UInt32) (whole : headerLength ≤ bs.length) :
    ∃ read, readPacket seqGenerator bs whole = some read ∧
      readFrame seqGenerator (bs.take size) = some read := by
  obtain ⟨header, h, small, rfl, within⟩ := packetVerdict_frame_iff.mp verdict
  obtain ⟨frame, rest, length, rfl⟩ : ∃ frame rest : List UInt8,
      frame.length = headerLength + header.bodyLen.toNat ∧ bs = frame ++ rest :=
    ⟨_, _, List.length_take_of_le within, (List.take_append_drop _ _).symm⟩
  have long : headerLength ≤ frame.length := by omega
  have h' : HeaderAt frame header := by
    refine ⟨long, ?_, ?_, ?_⟩
    · exact h.same.trans (PacketHeader.ofBytes_append long rest _)
    · have cons : frame ≠ [] := fun nil => by simp [nil, headerLength] at long
      rw [← List.head?_append_of_ne_nil _ cons]
      exact h.flag
    · rw [← h.crc, List.take_append_of_le_length (le_trans (Nat.sub_le _ _) long)]
  have idShort := short header (by rwa [List.take_left' length])
  have inside : PacketHeader.deviceIdOffset + header.deviceIdLen.toNat ≤ frame.length := by
    simp only [PacketHeader.deviceIdOffset, deviceIdSize, headerLength] at idShort length ⊢
    omega
  obtain ⟨same, found⟩ := readPacket_append seqGenerator h' inside length.ge rest whole
  obtain ⟨read, isRead⟩ := Option.isSome_iff_exists.mp found
  refine ⟨read, same.trans isRead, ?_⟩
  rw [List.take_left' length, readFrame, dif_pos long]
  exact isRead

namespace Connection

/-- `process_packet` hands to the receiver exactly the frames that the scanner
cuts from the unread bytes, up to the one that closes the connection, and
keeps the residue unread. -/
theorem processPacket_eq {c : Connection} (wf : c.recvBuffer.WellFormed) (short : ShortIds c.recvBuffer.pending) :
    ∃ recvBuffer, c.processPacket = some (⟨(consume consumeFrame c.receiver
          (packetScanner.frames c.recvBuffer.pending)).1, recvBuffer⟩,
        (consume consumeFrame c.receiver (packetScanner.frames c.recvBuffer.pending)).2) ∧
      recvBuffer.WellFormed ∧ recvBuffer.length = c.recvBuffer.length ∧
      ((consume consumeFrame c.receiver (packetScanner.frames c.recvBuffer.pending)).2 = true →
        recvBuffer.pending = packetScanner.residue c.recvBuffer.pending) := by
  induction size : c.recvBuffer.size using Nat.strongRecOn generalizing c with
  | _ size ih =>
    rw [processPacket]
    rcases packetVerdict_seek c.recvBuffer.pending with waiting | ⟨n, verdict⟩
    · have cut := Scanner.frames_wait (S := packetScanner) waiting
      have rest := Scanner.residue_wait (S := packetScanner) waiting
      rw [Scanner.frames_seek] at cut
      rw [Scanner.residue_seek] at rest
      obtain ⟨wf', pending, length⟩ := wf.consume (packetScanner.seek c.recvBuffer.pending)
      rw [cut, decodePacket_of_wait waiting]
      exact ⟨_, rfl, wf', length, fun _ => pending.trans rest.symm⟩
    · have cut := Scanner.frames_frame (S := packetScanner) verdict
      have rest := Scanner.residue_frame (S := packetScanner) verdict
      rw [Scanner.frames_seek, List.drop_drop] at cut
      rw [Scanner.residue_seek, List.drop_drop] at rest
      obtain ⟨whole, found⟩ := decodePacket_of_frame c.receiver.seqGenerator verdict
      obtain ⟨⟨pack, gen'⟩, isRead, same⟩ :=
        readPacket_frame_only verdict (short _ (cut ▸ List.mem_cons_self)) c.receiver.seqGenerator whole
      rw [isRead, Option.map_some] at found
      have bound := decodePacket_consumeLen found
      have head : consumeFrame c.receiver ((c.recvBuffer.pending.drop
          (packetScanner.seek c.recvBuffer.pending)).take n) =
          ({ c.receiver with seqGenerator := gen' } : Receiver).handle pack := by
        rw [consumeFrame, same]
      obtain ⟨wf', pending, length⟩ := wf.consume (packetScanner.seek c.recvBuffer.pending + n)
      rw [cut, consume_cons, head, found]
      rcases handled : ({ c.receiver with seqGenerator := gen' } : Receiver).handle pack with ⟨receiver, _ | _⟩
      · exact ⟨_, by simp only [handled]; rfl, wf', length, fun closed => by simp at closed⟩
      · have smaller : (c.recvBuffer.consume (packetScanner.seek c.recvBuffer.pending + n)).size <
            c.recvBuffer.size := by
          have positive : 0 < c.recvBuffer.size := by
            rw [← wf.pending_length]
            simp only [headerLength] at bound
            omega
          simp only [headerLength] at bound
          exact IoBuffer.size_consume_lt (by omega) positive
        obtain ⟨recvBuffer, run, last⟩ := ih _ (size ▸ smaller)
          (c := ⟨receiver, c.recvBuffer.consume (packetScanner.seek c.recvBuffer.pending + n)⟩) wf'
          (fun frame member => short frame (by
            rw [cut]
            exact List.mem_cons_of_mem _ (pending ▸ member))) rfl
        simp only [pending, length, ← rest] at run last
        exact ⟨recvBuffer, by simpa only [handled, if_true] using run, by simpa only [if_true] using last⟩

theorem sizeToRead_pos {c : Connection} (wf : c.recvBuffer.WellFormed) (length : c.recvBuffer.length = recvBufSize)
    (waiting : packetVerdict c.recvBuffer.pending = .wait) : 0 < c.sizeToRead ∧ 0 < c.recvBuffer.capacity := by
  have few := length_lt_of_wait waiting
  have ordered := wf.head_le
  rw [wf.pending_length] at few
  simp only [headerLength, maxBodyLength, recvBufSize] at few length
  have room : 0 < c.recvBuffer.capacity := by
    rw [IoBuffer.capacity, length]
    omega
  refine ⟨?_, room⟩
  unfold sizeToRead
  split
  · assumption
  · exact room

end Connection

/-- The loop follows an abstract session: it is suspended in a read behind the
bytes the session has pending, or it has reported the disconnect of a session
that is closed. -/
inductive ReceiveLoop.Follows : ReceiveLoop → Session Receiver UInt8 → Prop
  | live {receiver : Receiver} {recvBuffer : IoBuffer} {slab : Slab} : recvBuffer.WellFormed →
      recvBuffer.length = Connection.recvBufSize → slab.data = recvBuffer.tail →
      slab.data + slab.size ≤ recvBuffer.length → 0 < slab.size →
      packetVerdict recvBuffer.pending = .wait →
      Follows ⟨⟨receiver, recvBuffer⟩, some slab⟩ (.live receiver recvBuffer.pending)
  | closed {receiver : Receiver} {recvBuffer : IoBuffer} :
      Follows ⟨⟨receiver.disconnect, recvBuffer⟩, none⟩ (.closed receiver)

theorem packetVerdict_residue (bs : List UInt8) : packetVerdict (packetScanner.residue bs) = .wait :=
  Scanner.classify_residue (S := packetScanner) bs

namespace ReceiveLoop

theorem suspend_follows {c : Connection} (wf : c.recvBuffer.WellFormed)
    (length : c.recvBuffer.length = Connection.recvBufSize)
    (waiting : packetVerdict c.recvBuffer.pending = .wait) :
    ∃ l, c.loopHead = some l ∧ l.Follows (.live c.receiver c.recvBuffer.pending) := by
  obtain ⟨positive, room⟩ := Connection.sizeToRead_pos wf length waiting
  obtain ⟨wf', pending, length', start, size, within⟩ := wf.prepare c.sizeToRead
  refine ⟨c.suspend, if_neg (Nat.ne_of_gt positive), ?_⟩
  rw [Connection.suspend, if_neg (Nat.ne_of_gt positive)]
  rcases prepared : c.recvBuffer.prepare c.sizeToRead with ⟨recvBuffer, slab⟩
  simp only [prepared] at wf' pending length' start size within ⊢
  rw [← pending] at waiting ⊢
  exact .live wf' (length'.trans length) start (within.trans length'.ge) (by omega) waiting

/-- The two branches of the loop head for a full buffer are never taken. -/
theorem start_follows (seqGenerator : UInt32) :
    ∃ l, start seqGenerator = some l ∧ l.Follows (.live ⟨seqGenerator, [], []⟩ []) := by
  have empty := IoBuffer.ofSize_pending Connection.recvBufSize
  obtain ⟨l, head, follows⟩ := suspend_follows (c := ⟨⟨seqGenerator, [], []⟩, .ofSize Connection.recvBufSize⟩)
    (IoBuffer.ofSize_wellFormed _) (IoBuffer.ofSize_length _) (by rw [empty]; rfl)
  exact ⟨l, head, by rwa [empty] at follows⟩

theorem read_follows {l : ReceiveLoop} {s : Receiver} {xs bs : List UInt8}
    (follows : l.Follows (.whole packetScanner consumeFrame s xs)) (short : ShortIds (xs ++ bs))
    (fits : ∀ slab, l.slab = some slab → bs.length ≤ slab.size) :
    ∃ next, l.read bs = some next ∧ next.Follows (.whole packetScanner consumeFrame s (xs ++ bs)) := by
  rw [← Session.feed_whole]
  have pendingShort := short.residue_append
  rcases first : consume consumeFrame s (packetScanner.frames xs) with ⟨t, _ | _⟩
  · simp only [Session.whole, first, Session.feed] at follows ⊢
    cases follows
    exact ⟨_, rfl, .closed⟩
  · simp only [Session.whole, first, Session.feed] at follows ⊢
    generalize packetScanner.residue xs = pending at follows pendingShort ⊢
    cases follows with
    | @live _ recvBuffer slab wf length data within positive waiting =>
      by_cases nonempty : 0 < bs.length
      · have size := fits slab rfl
        obtain ⟨wf', appended, length'⟩ := @IoBuffer.WellFormed.fill_commit _ wf slab bs data (by omega)
        rw [← appended] at pendingShort ⊢
        obtain ⟨rest, run, restWf, restLength, residue⟩ :=
          Connection.processPacket_eq (c := ⟨t, (recvBuffer.fill slab bs).commit bs.length⟩) wf' pendingShort
        simp only [read, resume, if_pos nonempty, run, Option.bind_some]
        rcases handled : consume consumeFrame t (packetScanner.frames
          ((recvBuffer.fill slab bs).commit bs.length).pending) with ⟨u, _ | _⟩
        · exact ⟨_, rfl, .closed⟩
        · rw [handled] at residue
          have left := residue rfl
          obtain ⟨next, head, next_follows⟩ := suspend_follows (c := ⟨u, rest⟩) restWf
            (restLength.trans (length'.trans length)) (by rw [left]; exact packetVerdict_residue _)
          exact ⟨next, by simpa only [if_true] using head, by simpa only [left] using next_follows⟩
      · -- A read that brings nothing leaves the loop where it was.
        obtain ⟨next, head, next_follows⟩ := suspend_follows (c := ⟨t, recvBuffer⟩) wf length waiting
        have nil : bs = [] := List.length_eq_zero_iff.mp (Nat.eq_zero_of_not_pos nonempty)
        simp only [read, resume, nil, List.append_nil,
          Scanner.frames_wait (S := packetScanner) waiting, consume_nil,
          Scanner.residue_wait (S := packetScanner) waiting]
        exact ⟨next, head, next_follows⟩

theorem readAll_follows {l : ReceiveLoop} {s : Receiver} {xs : List UInt8} {reads : List (List UInt8)}
    (follows : l.Follows (.whole packetScanner consumeFrame s xs)) (short : ShortIds (xs ++ reads.flatten))
    (fits : l.Fits reads) :
    ∃ last, l.readAll reads = some last ∧
      last.Follows (.whole packetScanner consumeFrame s (xs ++ reads.flatten)) := by
  induction reads generalizing l xs with
  | nil => exact ⟨l, rfl, by simpa using follows⟩
  | cons bs reads ih =>
    rw [List.flatten_cons, ← List.append_assoc] at short ⊢
    obtain ⟨next, taken, next_follows⟩ := read_follows follows short.of_append fits.1
    obtain ⟨last, run, last_follows⟩ := ih next_follows short (fits.2 next taken)
    refine ⟨last, ?_, last_follows⟩
    rw [readAll, List.foldlM_cons, taken]
    exact run

/-- Two loops that follow one session agree on all they have done and on
whether they still read. -/
theorem Follows.agree {l l' : ReceiveLoop} {session : Session Receiver UInt8} (follows : l.Follows session)
    (follows' : l'.Follows session) : l.conn.receiver = l'.conn.receiver ∧ l.slab.isSome = l'.slab.isSome := by
  cases follows with
  | live =>
    generalize pendingEq : IoBuffer.pending _ = pending at follows'
    cases follows'
    exact ⟨rfl, rfl⟩
  | closed =>
    cases follows'
    exact ⟨rfl, rfl⟩

end ReceiveLoop

/-- The receive loop on a whole stream: it never reads outside the unread bytes
and ends where the session of that stream does, however the stream is cut. -/
theorem receivePacket_follows {seqGenerator : UInt32} {reads : List (List UInt8)}
    (short : ShortIds reads.flatten) (fits : FittingReads seqGenerator reads) :
    ∃ l, receivePacket seqGenerator reads = some l ∧
      l.Follows (.whole packetScanner consumeFrame ⟨seqGenerator, [], []⟩ reads.flatten) := by
  obtain ⟨first, started, follows⟩ := ReceiveLoop.start_follows seqGenerator
  have whole : Session.whole packetScanner consumeFrame ⟨seqGenerator, [], []⟩ [] =
      .live ⟨seqGenerator, [], []⟩ [] := by
    rw [Session.whole, frames_nil, residue_nil, consume_nil]
  rw [← whole] at follows
  obtain ⟨last, run, last_follows⟩ := ReceiveLoop.readAll_follows follows short (fits first started)
  exact ⟨last, by rw [receivePacket, started, Option.bind_some, run], last_follows⟩

end Asyncmsg
