import Asyncmsg.Delivery
import Asyncmsg.ScanExact

namespace Asyncmsg
open Scanning

/-- Every header in the stream that is not oversize declares a device id that
stays inside its own field. -/
def ShortHeaders (stream : List UInt8) : Prop :=
  ∀ o header, HeaderAt (stream.drop o) header → ¬header.Oversize → header.deviceIdLen.toNat ≤ deviceIdSize

theorem ShortHeaders.shortIds {stream : List UInt8} (short : ShortHeaders stream) : ShortIds stream := by
  intro frame member header h
  obtain ⟨p, n, cut, rfl⟩ := Scanner.exists_of_mem_frames member
  obtain ⟨other, found, small, _⟩ := packetVerdict_frame_iff.mp cut
  have there := h.append ((stream.drop p).drop n)
  rw [List.take_append_drop] at there
  exact short p header there (found.unique there ▸ not_lt.mpr small)

theorem ShortHeaders.of_append {xs ys : List UInt8} (short : ShortHeaders (xs ++ ys)) : ShortHeaders xs := by
  intro o header h small
  by_cases before : o ≤ xs.length
  · exact short o header (List.drop_append_of_le_length before ▸ h.append ys) small
  · have whole := h.whole
    rw [List.length_drop] at whole
    simp only [headerLength] at whole
    omega

/-- Nothing is returned where the scan waits behind what has been consumed. -/
theorem decodePacket_none {seqGenerator gen' : UInt32} {buf : List UInt8} {consumeLen : Nat}
    (decoded : decodePacket seqGenerator buf = some ⟨none, consumeLen, gen'⟩) :
    packetVerdict (buf.drop consumeLen) = .wait := by
  rcases waits_or_stopsAtFrame buf with waiting | ⟨header, stops⟩
  · rw [decodePacket_of_wait waiting] at decoded
    cases decoded
    exact waiting
  · obtain ⟨_, found⟩ := decodePacket_of_frame seqGenerator stops.verdict
    rw [decoded] at found
    obtain ⟨_, _, same⟩ := Option.map_eq_some_iff.mp found.symm
    cases same

namespace Connection

/-- A read brings bytes into its slab. Meanwhile the process-wide generator may
have moved. -/
def receive (c : Connection) (slab : Slab) (bs : List UInt8) (seqGenerator : UInt32) : Connection :=
  ⟨{ c.receiver with seqGenerator := seqGenerator }, (c.recvBuffer.fill slab bs).commit bs.length⟩

/-- The bytes that `process_packet` takes from the buffer, in their order. -/
def consumed (c : Connection) : List UInt8 :=
  match _ : decodePacket c.receiver.seqGenerator c.recvBuffer.pending with
  | none => []
  | some ⟨none, consumeLen, _⟩ => c.recvBuffer.pending.take consumeLen
  | some ⟨some pack, consumeLen, seqGenerator⟩ =>
    c.recvBuffer.pending.take consumeLen ++
      match ({ c.receiver with seqGenerator := seqGenerator } : Receiver).handle pack with
      | (_, false) => []
      | (receiver, true) => consumed ⟨receiver, c.recvBuffer.consume consumeLen⟩
termination_by c.recvBuffer.size
decreasing_by
  have bound := decodePacket_consumeLen ‹_›
  simp only [IoBuffer.pending, List.length_take, headerLength] at bound
  exact IoBuffer.size_consume_lt (by omega) (by omega)

variable {c : Connection} {consumeLen : Nat} {gen' : UInt32} {pack : Packet} {receiver : Receiver}

theorem consumed_of_none
    (decoded : decodePacket c.receiver.seqGenerator c.recvBuffer.pending = some ⟨none, consumeLen, gen'⟩) :
    c.consumed = c.recvBuffer.pending.take consumeLen := by
  rw [consumed]
  split <;> simp_all

theorem consumed_of_closed
    (decoded : decodePacket c.receiver.seqGenerator c.recvBuffer.pending = some ⟨some pack, consumeLen, gen'⟩)
    (handled : ({ c.receiver with seqGenerator := gen' } : Receiver).handle pack = (receiver, false)) :
    c.consumed = c.recvBuffer.pending.take consumeLen := by
  rw [consumed]
  split <;> simp_all

theorem consumed_of_live
    (decoded : decodePacket c.receiver.seqGenerator c.recvBuffer.pending = some ⟨some pack, consumeLen, gen'⟩)
    (handled : ({ c.receiver with seqGenerator := gen' } : Receiver).handle pack = (receiver, true)) :
    c.consumed = c.recvBuffer.pending.take consumeLen ++
      (⟨receiver, c.recvBuffer.consume consumeLen⟩ : Connection).consumed := by
  rw [consumed]
  split <;> simp_all

/-- What is not consumed stays in the buffer, and a buffer that is not closed
waits for more. -/
theorem processPacket_consumed {c last : Connection} {live : Bool} (wf : c.recvBuffer.WellFormed)
    (run : c.processPacket = some (last, live)) :
    c.recvBuffer.pending = c.consumed ++ last.recvBuffer.pending ∧ last.recvBuffer.WellFormed ∧
      last.recvBuffer.length = c.recvBuffer.length ∧
      (live = true → packetVerdict last.recvBuffer.pending = .wait) := by
  fun_induction processPacket c with
  | case1 => cases run
  | case2 c consumeLen gen' decoded =>
    cases run
    obtain ⟨wf', pending, length⟩ := wf.consume consumeLen
    refine ⟨?_, wf', length, fun _ => ?_⟩
    · rw [consumed_of_none decoded, pending, List.take_append_drop]
    · rw [pending]
      exact decodePacket_none decoded
  | case3 c pack consumeLen gen' decoded receiver handled =>
    cases run
    obtain ⟨wf', pending, length⟩ := wf.consume consumeLen
    refine ⟨?_, wf', length, fun closed => by cases closed⟩
    rw [consumed_of_closed decoded handled, pending, List.take_append_drop]
  | case4 c pack consumeLen gen' decoded receiver handled ih =>
    obtain ⟨wf', pending, length⟩ := wf.consume consumeLen
    obtain ⟨rest, wf'', length', waiting⟩ := ih wf' run
    refine ⟨?_, wf'', length'.trans length, waiting⟩
    rw [consumed_of_live decoded handled, List.append_assoc, ← rest, pending, List.take_append_drop]

end Connection

/-- The heads of the iterations of `receive_packet`, with the bytes received so
far and, of these, the bytes consumed. The connection starts with any device
id. -/
inductive LoopHead (receiver : Receiver) : Connection → List UInt8 → List UInt8 → Prop
  | start : LoopHead receiver ⟨receiver, .ofSize Connection.recvBufSize⟩ [] []
  | next {c last suspended : Connection} {received consumed bs : List UInt8} {slab : Slab} {gen : UInt32} :
      LoopHead receiver c received consumed → c.loopHead = some ⟨suspended, some slab⟩ →
      0 < bs.length → bs.length ≤ slab.size →
      (suspended.receive slab bs gen).processPacket = some (last, true) →
      LoopHead receiver last (received ++ bs)
        (consumed ++ (if c.sizeToRead = 0 then c.consumed else []) ++ (suspended.receive slab bs gen).consumed)

/-- What holds at the head of an iteration: the buffer is in order and holds
what has not been consumed, fewer bytes than a largest frame, and the read that
follows is offered room behind them. -/
structure SoundHead (c : Connection) (received consumed : List UInt8) : Prop where
  head_le : c.recvBuffer.head ≤ c.recvBuffer.tail
  tail_le : c.recvBuffer.tail ≤ 128 * 1024
  holds : received = consumed ++ c.recvBuffer.pending
  few : c.recvBuffer.size < headerLength + maxBodyLength
  room : c.sizeToRead ≠ 0
  offers : ∃ suspended slab, c.loopHead = some ⟨suspended, some slab⟩ ∧ 0 < slab.size ∧
    slab.data = suspended.recvBuffer.tail ∧ slab.data + slab.size ≤ 128 * 1024 ∧
    suspended.recvBuffer.pending = c.recvBuffer.pending

/-- What the iterations keep of their buffer. -/
structure Held (c : Connection) (received consumed : List UInt8) : Prop where
  wf : c.recvBuffer.WellFormed
  length : c.recvBuffer.length = Connection.recvBufSize
  waiting : packetVerdict c.recvBuffer.pending = .wait
  holds : received = consumed ++ c.recvBuffer.pending

namespace Held
variable {c suspended : Connection} {received consumed bs : List UInt8} {slab : Slab}

/-- The head of an iteration always comes to its read. -/
theorem loopHead (held : Held c received consumed) :
    c.loopHead = some ⟨{ c with recvBuffer := (c.recvBuffer.prepare c.sizeToRead).1 },
      some (c.recvBuffer.prepare c.sizeToRead).2⟩ := by
  have room := (Connection.sizeToRead_pos held.wf held.length held.waiting).1.ne'
  rw [Connection.loopHead, if_neg room, Connection.suspend, if_neg room]

/-- The bytes of a read stand behind those held. -/
theorem receive (held : Held c received consumed) (gen : UInt32)
    (head : c.loopHead = some ⟨suspended, some slab⟩) (fits : bs.length ≤ slab.size) :
    (suspended.receive slab bs gen).recvBuffer.WellFormed ∧
      (suspended.receive slab bs gen).recvBuffer.pending = c.recvBuffer.pending ++ bs ∧
      (suspended.receive slab bs gen).recvBuffer.length = Connection.recvBufSize := by
  obtain ⟨wf, pending, length, data, _, within⟩ := held.wf.prepare c.sizeToRead
  cases held.loopHead.symm.trans head
  rw [← length] at within
  obtain ⟨wf', appended, length'⟩ := @IoBuffer.WellFormed.fill_commit _ wf _ bs data (by omega)
  exact ⟨wf', by rw [← pending]; exact appended, length'.trans (length.trans held.length)⟩

theorem sound (held : Held c received consumed) : SoundHead c received consumed := by
  obtain ⟨room, capacity⟩ := Connection.sizeToRead_pos held.wf held.length held.waiting
  obtain ⟨_, pending, length, data, size, within⟩ := held.wf.prepare c.sizeToRead
  have few := length_lt_of_wait held.waiting
  have inside := held.wf.tail_le
  rw [held.wf.pending_length] at few
  rw [held.length] at inside within
  exact ⟨held.wf.head_le, inside, held.holds, few, room.ne', _, _, held.loopHead, by omega, data, within, pending⟩

end Held

theorem ReceiveLoop.readAll_of_ended {l : ReceiveLoop} (ended : l.slab = none) (reads : List (List UInt8)) :
    l.readAll reads = some l := by
  induction reads with
  | nil => rfl
  | cons bs reads ih =>
    have read : l.read bs = some l := by rw [ReceiveLoop.read, ended]
    rw [ReceiveLoop.readAll, List.foldlM_cons, read]
    exact ih

namespace LoopHead
variable {receiver : Receiver} {c : Connection} {received consumed : List UInt8}

theorem held (head : LoopHead receiver c received consumed) : Held c received consumed := by
  induction head with
  | start =>
    exact ⟨IoBuffer.ofSize_wellFormed _, IoBuffer.ofSize_length _, by rw [IoBuffer.ofSize_pending]; rfl, by simp⟩
  | @next c last suspended received consumed bs slab gen _ offered _ fits run ih =>
    obtain ⟨wf, appended, length⟩ := ih.receive gen offered fits
    obtain ⟨rest, wf', length', waiting⟩ := Connection.processPacket_consumed wf run
    refine ⟨wf', length'.trans length, waiting rfl, ?_⟩
    rw [if_neg ih.sound.room, List.append_nil, List.append_assoc, ← rest, appended, ← List.append_assoc, ← ih.holds]

/-- What is held is what the scanner leaves of the stream. -/
theorem residue (head : LoopHead receiver c received consumed) (short : ShortHeaders received) :
    c.recvBuffer.pending = packetScanner.residue received := by
  induction head with
  | start => rw [IoBuffer.ofSize_pending, residue_nil]
  | @next c last suspended received consumed bs slab gen before offered _ fits run ih =>
    obtain ⟨wf, appended, _⟩ := before.held.receive gen offered fits
    rw [ih short.of_append] at appended
    obtain ⟨recvBuffer, run', _, _, left⟩ :=
      Connection.processPacket_eq wf (appended ▸ short.shortIds.residue_append)
    rw [run] at run'
    obtain ⟨same, live⟩ := Prod.mk.inj (Option.some.inj run')
    rw [same, Scanner.residue_append (S := packetScanner), ← appended]
    exact left live.symm

/-- The receive loop never stalls and keeps its buffer: at the head of every
iteration the buffer is in order, holds exactly what has been received and not
consumed, and offers the read room behind it; and the packets of the read are
processed inside the buffer. -/
theorem sound_and_processes (head : LoopHead receiver c received consumed) :
    SoundHead c received consumed ∧
      ∀ suspended slab bs gen, c.loopHead = some ⟨suspended, some slab⟩ → 0 < bs.length →
        bs.length ≤ slab.size → ShortHeaders (received ++ bs) →
        (suspended.receive slab bs gen).processPacket.isSome := by
  refine ⟨head.held.sound, fun suspended slab bs gen offered _ fits short => ?_⟩
  obtain ⟨wf, appended, _⟩ := head.held.receive gen offered fits
  rw [head.residue short.of_append] at appended
  obtain ⟨recvBuffer, run, _⟩ := Connection.processPacket_eq wf (appended ▸ short.shortIds.residue_append)
  rw [run]
  rfl

theorem of_readAll {l last : ReceiveLoop} {slab : Slab} {reads : List (List UInt8)}
    (head : LoopHead receiver c received consumed) (offered : c.loopHead = some l) (fits : l.Fits reads)
    (nonempty : ∀ bs ∈ reads, 0 < bs.length) (run : l.readAll reads = some last) (live : last.slab = some slab) :
    ∃ c' consumed', LoopHead receiver c' (received ++ reads.flatten) consumed' ∧ c'.loopHead = some last := by
  induction reads generalizing c l received consumed with
  | nil =>
    cases run
    exact ⟨c, consumed, by rwa [List.flatten_nil, List.append_nil], offered⟩
  | cons bs reads ih =>
    obtain ⟨next, taken, rest⟩ : ∃ next, l.read bs = some next ∧ next.readAll reads = some last := by
      rw [ReceiveLoop.readAll, List.foldlM_cons] at run
      exact Option.bind_eq_some_iff.mp run
    obtain ⟨suspended, slab', offered', _⟩ := head.held.sound.offers
    cases offered.symm.trans offered'
    have some := nonempty bs List.mem_cons_self
    have resumed := taken
    simp only [ReceiveLoop.read, ReceiveLoop.resume, if_pos some] at resumed
    obtain ⟨⟨c', goes⟩, processed, after⟩ := Option.bind_eq_some_iff.mp resumed
    cases goes with
    | false =>
      cases after
      cases (ReceiveLoop.readAll_of_ended rfl reads).symm.trans rest
      cases live
    | true =>
      rw [List.flatten_cons, ← List.append_assoc]
      exact ih (head.next offered' some (fits.1 slab' rfl) processed) after (fits.2 next taken)
        (fun bs member => nonempty bs (List.mem_cons_of_mem _ member)) rest

/-- The heads are those of the runs of `receive_packet`. -/
theorem of_receivePacket {seqGenerator : UInt32} {last : ReceiveLoop} {slab : Slab} {reads : List (List UInt8)}
    (fits : FittingReads seqGenerator reads) (nonempty : ∀ bs ∈ reads, 0 < bs.length)
    (run : receivePacket seqGenerator reads = some last) (live : last.slab = some slab) :
    ∃ c consumed, LoopHead ⟨seqGenerator, [], []⟩ c reads.flatten consumed ∧ c.loopHead = some last := by
  obtain ⟨l, started, rest⟩ := Option.bind_eq_some_iff.mp run
  exact of_readAll .start started (fits l started) nonempty rest live

/-- The headers of `pong` and `ping` are all that the bytes of their frames hold. -/
theorem shortHeaders_pong_ping : ShortHeaders (pong.frame (by decide) ++ ping.frame (by decide)) := by
  intro o header h _
  have whole := h.whole
  have length : (pong.frame (by decide) ++ ping.frame (by decide)).length = 175 := by decide +kernel
  rw [List.length_drop, length] at whole
  simp only [headerLength] at whole
  have flags : ∀ o ≤ 88, (pong.frame (by decide) ++ ping.frame (by decide))[o]? = some packetBeginFlag →
      o = 0 ∨ o = 87 := by decide +kernel
  rcases flags o (by omega) (by rw [← List.head?_drop]; exact h.flag) with rfl | rfl
  · rw [h.unique (pong.headerAt_frame (by decide) _), Packet.sealedHeader_deviceIdLen]
    decide
  · rw [List.drop_left' (by decide +kernel)] at h
    have own := ping.headerAt_frame (by decide) []
    rw [List.append_nil] at own
    rw [h.unique own, Packet.sealedHeader_deviceIdLen]
    decide

theorem pong_sendable : pong.Sendable := ⟨by decide, by decide, by decide, by decide⟩

theorem ping_sendable : ping.Sendable := ⟨by decide, by decide, by decide, by decide⟩

/-- A read that brings one packet and the first bytes of another one. -/
def firstRead : List UInt8 := pong.frame pong_sendable.short ++ (ping.frame ping_sendable.short).take 40

/-- A read that brings the other bytes. -/
def nextRead : List UInt8 := (ping.frame ping_sendable.short).drop 40

theorem shortHeaders_reads : ShortHeaders (firstRead ++ nextRead) := by
  rw [firstRead, nextRead, List.append_assoc, List.take_append_drop]
  exact shortHeaders_pong_ping

/-- The scanner cuts the frame of `pong` and keeps the first bytes of that of `ping`. -/
theorem scan_firstRead : packetScanner.frames firstRead = [pong.frame (by decide)] ∧
    packetScanner.residue firstRead = (ping.frame (by decide)).take 40 := by
  have waiting : packetVerdict ((ping.frame (by decide)).take 40) = .wait := by
    have none : ∀ header, ¬HeaderAt ((ping.frame (by decide)).take 40) header := fun header h => by
      have whole := h.whole
      rw [List.length_take] at whole
      simp only [headerLength] at whole
      omega
    obtain ⟨wrong, _⟩ | ⟨wait, _⟩ := packetVerdict_no_header none
    · exact absurd wrong (by decide +kernel)
    · exact wait
  obtain ⟨frames, residue⟩ := scan_frame pong (by decide) (by decide) ((ping.frame (by decide)).take 40)
  rw [firstRead, frames, residue, Scanner.frames_wait waiting, Scanner.residue_wait waiting]
  exact ⟨rfl, rfl⟩

/-- The loop goes on behind the first read, and has room for the next one. -/
theorem receivePacket_firstRead :
    ∃ suspended slab, FittingReads 1 [firstRead] ∧ receivePacket 1 [firstRead] = some ⟨suspended, some slab⟩ ∧
      nextRead.length ≤ slab.size := by
  have fits : FittingReads 1 [firstRead, nextRead] := fittingReads_of_length_le (by decide +kernel)
  have alone : FittingReads 1 [firstRead] := fittingReads_of_length_le (by decide +kernel)
  have cut : [firstRead].flatten = firstRead := List.flatten_singleton
  obtain ⟨⟨suspended, offered⟩, run, follows⟩ :=
    receivePacket_follows (cut.symm ▸ shortHeaders_reads.of_append.shortIds) alone
  obtain ⟨frames, residue⟩ := scan_firstRead
  have whole : Session.whole packetScanner consumeFrame ⟨1, [], []⟩ firstRead =
      .live ⟨1, [], [.decoded pong]⟩ ((ping.frame (by decide)).take 40) := by
    rw [Session.whole, frames, residue, consume_cons, consumeFrame_frame pong_sendable]
    rfl
  rw [cut, whole] at follows
  obtain ⟨slab, live⟩ := Option.isSome_iff_exists.mp follows.of_live.2.2
  cases live
  obtain ⟨l, started, read⟩ := Option.bind_eq_some_iff.mp run
  have taken : l.read firstRead = some ⟨suspended, some slab⟩ := by
    simpa [ReceiveLoop.readAll] using read
  exact ⟨suspended, slab, alone, run, ((fits l started).2 _ taken).1 slab rfl⟩

/-- One packet is consumed, the first bytes of another one stay in the buffer,
and the next read brings the others. -/
theorem sound_and_processes_part :
    ∃ c suspended slab, LoopHead ⟨1, [], []⟩ c firstRead (pong.frame (by decide)) ∧
      c.recvBuffer.pending = (ping.frame (by decide)).take 40 ∧ SoundHead c firstRead (pong.frame (by decide)) ∧
      c.loopHead = some ⟨suspended, some slab⟩ ∧ (suspended.receive slab nextRead 1).processPacket.isSome := by
  obtain ⟨suspended, slab, fits, run, room⟩ := receivePacket_firstRead
  have nonempty : ∀ bs ∈ [firstRead], 0 < bs.length := by
    intro bs member
    rw [List.mem_singleton.mp member]
    decide +kernel
  obtain ⟨c, consumed, head, offered⟩ := of_receivePacket fits nonempty run rfl
  rw [List.flatten_singleton] at head
  obtain ⟨sound, processes⟩ := sound_and_processes head
  have pending := (head.residue shortHeaders_reads.of_append).trans scan_firstRead.2
  have own : pong.frame (by decide) = consumed := by
    have holds := sound.holds
    rw [pending] at holds
    exact List.append_cancel_right holds
  cases own
  exact ⟨c, suspended, slab, head, pending, sound, offered,
    processes suspended slab nextRead 1 offered (by decide +kernel) room shortHeaders_reads⟩

end LoopHead
end Asyncmsg
