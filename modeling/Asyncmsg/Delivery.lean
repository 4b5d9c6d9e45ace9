import Asyncmsg.ReceiveRoom
import Asyncmsg.ReceiveSession
import Asyncmsg.RoundTrip

namespace Asyncmsg
open Scanning

namespace Receiver

def decodedPackets (r : Receiver) : List Packet :=
  r.events.filterMap fun | .decoded pack => some pack | _ => none

/-- The packets handed to the owner or looked up for a waiting call. -/
def acceptedPackets (r : Receiver) : List Packet :=
  r.events.filterMap fun | .request _ pack => some pack | .response pack => some pack | _ => none

def announcedIds (r : Receiver) : List (List UInt8) :=
  r.events.filterMap fun | .gotDeviceId id => some id | _ => none

theorem decodedPackets_deliver (r : Receiver) (pack : Packet) :
    (r.deliver pack).decodedPackets = r.decodedPackets := by
  unfold deliver
  split <;> simp [decodedPackets, emit]

/-- A round of `process_packet` decodes its packet, whatever becomes of it. -/
theorem decodedPackets_handle (r : Receiver) (pack : Packet) :
    (r.handle pack).1.decodedPackets = r.decodedPackets ++ [pack] := by
  have decoded : (r.emit (.decoded pack)).decodedPackets = r.decodedPackets ++ [pack] := by
    simp [decodedPackets, emit]
  unfold handle
  dsimp only
  split
  · exact decoded
  · split
    · rw [decodedPackets_deliver]
      simp [decodedPackets, emit]
    · split
      · exact decoded
      · rw [decodedPackets_deliver, decoded]

theorem decodedPackets_disconnect (r : Receiver) : r.disconnect.decodedPackets = r.decodedPackets := by
  simp [disconnect, decodedPackets, emit]

end Receiver

namespace ReceiveLoop

def reading (l : ReceiveLoop) : Bool := l.slab.isSome

/-- The loop has been closed by a packet that carries another device id than
the connection: nothing but the disconnect follows its decoding. -/
def Mismatched (l : ReceiveLoop) : Prop :=
  ∃ before pack, l.conn.receiver.events =
      before ++ [.decoded pack, .disconnected l.conn.receiver.deviceId] ∧
    pack.deviceId ≠ [] ∧ l.conn.receiver.deviceId ≠ [] ∧ l.conn.receiver.deviceId ≠ pack.deviceId

end ReceiveLoop

theorem Receiver.handle_refused {r t : Receiver} {pack : Packet} (refused : r.handle pack = (t, false)) :
    t = r.emit (.decoded pack) ∧ pack.deviceId ≠ [] ∧ t.deviceId ≠ [] ∧ t.deviceId ≠ pack.deviceId := by
  simp only [Receiver.handle] at refused
  split at refused
  · cases refused
  · rename_i named
    split at refused
    · cases refused
    · rename_i bound
      split at refused
      · rename_i different
        cases refused
        exact ⟨rfl, named, bound, different⟩
      · cases refused

/-- A loop that has stopped reading by itself was closed for a mismatch. -/
theorem ReceiveLoop.Follows.mismatched {l : ReceiveLoop} {s : Receiver} {xs : List UInt8}
    (follows : l.Follows (.whole packetScanner consumeFrame s xs)) (ended : l.reading = false) : l.Mismatched := by
  rcases whole : consume consumeFrame s (packetScanner.frames xs) with ⟨t, _ | _⟩
  · simp only [Session.whole, whole] at follows
    obtain ⟨r, frame, refused⟩ := consume_refused whole
    cases follows
    unfold consumeFrame at refused
    split at refused
    · obtain ⟨rfl, named, bound, different⟩ := Receiver.handle_refused refused
      exact ⟨r.events, _, by simp [Receiver.disconnect, Receiver.emit], named, bound, different⟩
    · cases refused
  · simp only [Session.whole, whole] at follows
    generalize packetScanner.residue xs = pending at follows
    cases follows
    cases ended

theorem headerAt_of_take {bs : List UInt8} {header : PacketHeader} {size : Nat} (h : HeaderAt (bs.take size) header) :
    HeaderAt bs header := by
  have longer := h.append (bs.drop size)
  rwa [List.take_append_drop] at longer

/-- The frames that the scanner cuts stand in the stream. -/
theorem frame_infix {stream frame : List UInt8} (member : frame ∈ packetScanner.frames stream) :
    ∃ offset size, frame = (stream.drop offset).take size := by
  induction stream using Scanner.scan_induction (S := packetScanner) with
  | skip bs n verdict ih =>
    rw [Scanner.frames_skip verdict] at member
    obtain ⟨offset, size, same⟩ := ih member
    exact ⟨n + offset, size, by rw [same, List.drop_drop]⟩
  | wait bs verdict =>
    rw [Scanner.frames_wait verdict] at member
    cases member
  | frame bs n verdict ih =>
    rw [Scanner.frames_frame verdict] at member
    rcases List.mem_cons.mp member with rfl | later
    · exact ⟨0, n, rfl⟩
    · obtain ⟨offset, size, same⟩ := ih later
      exact ⟨n + offset, size, by rw [same, List.drop_drop]⟩

/-- Segmentation independence: a connection without a device id does the same
things on a stream, and comes to the same end, however the stream is cut. -/
theorem receivePacket_segmentation {seqGenerator : UInt32} {stream : List UInt8}
    (short : ∀ offset header, HeaderAt (stream.drop offset) header → header.deviceIdLen.toNat ≤ deviceIdSize)
    {reads reads' : List (List UInt8)} (cut : reads.flatten = stream) (cut' : reads'.flatten = stream)
    (fits : FittingReads seqGenerator reads) (fits' : FittingReads seqGenerator reads') :
    ∃ l l', receivePacket seqGenerator reads = some l ∧ receivePacket seqGenerator reads' = some l' ∧
      l.conn.receiver.acceptedPackets = l'.conn.receiver.acceptedPackets ∧
      l.conn.receiver.announcedIds = l'.conn.receiver.announcedIds ∧ l.reading = l'.reading ∧
      (l.reading = false → l.Mismatched ∧ l'.Mismatched) := by
  have shortIds : ShortIds stream := fun frame member header h => by
    obtain ⟨offset, size, rfl⟩ := frame_infix member
    exact short offset header (headerAt_of_take h)
  obtain ⟨l, run, follows⟩ := receivePacket_follows (cut ▸ shortIds) fits
  obtain ⟨l', run', follows'⟩ := receivePacket_follows (cut' ▸ shortIds) fits'
  rw [cut] at follows
  rw [cut'] at follows'
  obtain ⟨same, live⟩ := follows.agree follows'
  refine ⟨l, l', run, run', by rw [same], by rw [same], live, fun ended => ?_⟩
  exact ⟨follows.mismatched ended, follows'.mismatched (live.symm.trans ended)⟩

/-- The ping behind a zero and a false flag. -/
def noisyPing : List UInt8 := [0, packetBeginFlag] ++ ping.frame (by decide)

theorem noisyPing_shortIds (offset : Nat) (header : PacketHeader) (h : HeaderAt (noisyPing.drop offset) header) :
    header.deviceIdLen.toNat ≤ deviceIdSize := by
  have whole := h.whole
  have total : noisyPing.length = 90 := by decide +kernel
  have checked : ∀ offset < 4, (networkToHost32 (slice (noisyPing.drop offset) 14 4)).toNat ≤ 64 ∨
      calcCrc8 ((noisyPing.drop offset).take 86) ≠ (noisyPing.drop offset).getD 86 0 := by decide +kernel
  rw [List.length_drop, total, headerLength] at whole
  rcases checked offset (by omega) with short | mismatch
  · rw [h.same]
    exact short
  · have crc := h.crc
    rw [h.same] at crc
    exact absurd crc mismatch

theorem receivePacket_segmentation_noisyPing :
    ∃ l l', receivePacket 0 [noisyPing] = some l ∧
      receivePacket 0 [noisyPing.take 2, (noisyPing.drop 2).take 40, noisyPing.drop 42] = some l' ∧
      l.conn.receiver.acceptedPackets = l'.conn.receiver.acceptedPackets ∧
      l.conn.receiver.announcedIds = l'.conn.receiver.announcedIds ∧ l.reading = l'.reading ∧
      (l.reading = false → l.Mismatched ∧ l'.Mismatched) := by
  have few : noisyPing.length ≤ Connection.recvBufSize := by decide +kernel
  have cut : [noisyPing].flatten = noisyPing := List.flatten_singleton
  have cut' : [noisyPing.take 2, (noisyPing.drop 2).take 40, noisyPing.drop 42].flatten = noisyPing := by
    decide +kernel
  exact receivePacket_segmentation noisyPing_shortIds cut cut' (fittingReads_of_length_le (by rwa [cut]))
    (fittingReads_of_length_le (by rwa [cut']))

section Stream
variable {common : List UInt8}

/-- A packet for a connection that only ever hears of one device id. -/
structure Packet.Deliverable (common : List UInt8) (pack : Packet) : Prop where
  seq : pack.seq ≠ 0
  body : pack.body.bytes.length ≤ maxBodyLength
  id : pack.deviceId = [] ∨ pack.deviceId = common

theorem Packet.Deliverable.sendable {pack : Packet} (legal : pack.Deliverable common)
    (short : common.length < deviceIdSize) (nulFree : 0 ∉ common) : pack.Sendable := by
  have body := legal.body
  simp only [maxBodyLength] at body
  refine ⟨?_, ?_, legal.seq, by simp only [headerLength]; omega⟩
  · rcases legal.id with empty | named
    · simp [empty, deviceIdSize]
    · rwa [named]
  · rcases legal.id with empty | named
    · simp [empty]
    · rwa [named]

/-- Such a packet is decoded and never closes the connection. -/
theorem Packet.Deliverable.handle {pack : Packet} (legal : pack.Deliverable common) {r : Receiver}
    (bound : r.deviceId = [] ∨ r.deviceId = common) :
    ∃ t, r.handle pack = (t, true) ∧ (t.deviceId = [] ∨ t.deviceId = common) ∧
      t.decodedPackets = r.decodedPackets ++ [pack] := by
  have deliver (q : Receiver) : (q.deliver pack).deviceId = q.deviceId := by
    unfold Receiver.deliver
    split <;> rfl
  obtain ⟨t, handled, after⟩ : ∃ t, r.handle pack = (t, true) ∧ (t.deviceId = [] ∨ t.deviceId = common) := by
    by_cases anonymous : pack.deviceId = []
    · exact ⟨r.emit (.decoded pack), if_pos anonymous, bound⟩
    · have named := legal.id.resolve_left anonymous
      rcases bound with first | known
      · exact ⟨_, (if_neg anonymous).trans (if_pos first), Or.inr ((deliver _).trans named)⟩
      · have later : r.deviceId ≠ [] := fun nil => anonymous (named.trans (known.symm.trans nil))
        have same : ¬r.deviceId ≠ pack.deviceId := not_ne_iff.mpr (known.trans named.symm)
        exact ⟨_, (if_neg anonymous).trans ((if_neg later).trans (if_neg same)), Or.inr ((deliver _).trans known)⟩
  have decoded := r.decodedPackets_handle pack
  rw [handled] at decoded
  exact ⟨t, handled, after, decoded⟩

theorem ReceiveLoop.Follows.of_live {l : ReceiveLoop} {t : Receiver} {pending : List UInt8}
    (follows : l.Follows (.live t pending)) :
    l.conn.receiver = t ∧ l.conn.recvBuffer.pending = pending ∧ l.reading = true := by
  cases follows
  exact ⟨rfl, rfl, rfl⟩

/-- The scanner cuts an encoded packet of permitted size off whatever follows. -/
theorem scan_frame (pack : Packet) (short : pack.deviceId.length < deviceIdSize)
    (small : pack.body.bytes.length ≤ maxBodyLength) (rest : List UInt8) :
    packetScanner.frames (pack.frame short ++ rest) = pack.frame short :: packetScanner.frames rest ∧
      packetScanner.residue (pack.frame short ++ rest) = packetScanner.residue rest := by
  have verdict : packetScanner.classify (pack.frame short ++ rest) = .frame (pack.frame short).length := by
    rw [packetScanner_classify, packetVerdict_frame, if_neg (by omega)]
  refine ⟨?_, ?_⟩
  · rw [Scanner.frames_frame verdict, List.take_left, List.drop_left]
  · rw [Scanner.residue_frame verdict, List.drop_left]

theorem consumeFrame_frame {pack : Packet} (sendable : pack.Sendable) (r : Receiver) :
    consumeFrame r (pack.frame sendable.short) = r.handle pack := by
  have whole : headerLength ≤ (pack.frame sendable.short ++ []).length := by simp
  have read := readPacket_frame_sendable r.seqGenerator sendable [] whole
  simp only [List.append_nil] at read whole
  rw [consumeFrame, readFrame, dif_pos whole, read]

/-- The session of a stream of such packets: all are decoded in order, nothing
stays behind, and the connection lives on. -/
theorem whole_encodeStream (short : common.length < deviceIdSize) (nulFree : 0 ∉ common) {packs : List Packet}
    (legal : ∀ pack ∈ packs, pack.Deliverable common) {r : Receiver}
    (bound : r.deviceId = [] ∨ r.deviceId = common) :
    ∃ stream t, encodeStream packs = some stream ∧ ShortIds stream ∧
      Session.whole packetScanner consumeFrame r stream = .live t [] ∧
      t.decodedPackets = r.decodedPackets ++ packs := by
  induction packs generalizing r with
  | nil =>
    refine ⟨[], r, rfl, ?_, ?_, (List.append_nil _).symm⟩
    · rw [ShortIds, frames_nil]
      exact fun frame member => by cases member
    · rw [Session.whole, frames_nil, residue_nil, consume_nil]
  | cons pack packs ih =>
    have first := legal pack List.mem_cons_self
    have sendable := first.sendable short nulFree
    obtain ⟨next, handled, bound', decoded⟩ := first.handle bound
    obtain ⟨rest, t, encoded, shortIds, whole, all⟩ :=
      ih (fun other member => legal other (List.mem_cons_of_mem _ member)) bound'
    obtain ⟨frames, residue⟩ := scan_frame pack sendable.short first.body rest
    refine ⟨_, t, encodeStream_cons sendable encoded, ?_, ?_, ?_⟩
    · rw [ShortIds, frames]
      intro frame member header h
      rcases List.mem_cons.mp member with rfl | later
      · have own := pack.headerAt_frame sendable.short []
        rw [List.append_nil] at own
        rw [h.unique own, pack.sealedHeader_deviceIdLen]
        exact sendable.short.le
      · exact shortIds frame later header h
    · rw [Session.whole, frames, residue, consume_cons, consumeFrame_frame sendable, handled]
      exact whole
    · rw [all, decoded, List.append_assoc, List.singleton_append]

end Stream

/-- Stream delivery: however the encodings of the packets are cut into reads,
the decoder returns exactly these packets in order, no byte stays unread and
the connection reads on. -/
theorem receivePacket_delivers {seqGenerator : UInt32} {common : List UInt8}
    (short : common.length < deviceIdSize) (nulFree : 0 ∉ common) {packs : List Packet}
    (legal : ∀ pack ∈ packs, pack.Deliverable common) :
    ∃ stream, encodeStream packs = some stream ∧
      ∀ reads, reads.flatten = stream → FittingReads seqGenerator reads →
        ∃ l, receivePacket seqGenerator reads = some l ∧ l.conn.receiver.decodedPackets = packs ∧
          l.conn.recvBuffer.pending = [] ∧ l.reading = true := by
  obtain ⟨stream, t, encoded, shortIds, whole, decoded⟩ :=
    whole_encodeStream (r := ⟨seqGenerator, [], []⟩) short nulFree legal (Or.inl rfl)
  refine ⟨stream, encoded, fun reads cut fits => ?_⟩
  obtain ⟨l, run, follows⟩ := receivePacket_follows (cut ▸ shortIds) fits
  rw [cut, whole] at follows
  obtain ⟨same, pending, reading⟩ := follows.of_live
  exact ⟨l, run, by rw [same, decoded]; rfl, pending, reading⟩

theorem receivePacket_delivers_ping_pong :
    ∃ stream, encodeStream [ping, pong] = some stream ∧
      ∃ l, receivePacket 0 [stream.take 100, stream.drop 100] = some l ∧
        l.conn.receiver.decodedPackets = [ping, pong] ∧ l.conn.recvBuffer.pending = [] ∧ l.reading = true := by
  have legal : ∀ pack ∈ [ping, pong], pack.Deliverable [0x61] := by
    intro pack member
    simp only [List.mem_cons, List.not_mem_nil, or_false] at member
    rcases member with rfl | rfl
    · exact ⟨by decide, by decide, Or.inr rfl⟩
    · exact ⟨by decide, by decide, Or.inl rfl⟩
  obtain ⟨stream, encoded, delivers⟩ := receivePacket_delivers (by decide) (by decide) legal
  have length : (encodeStream [ping, pong]).map List.length = some 175 := by decide +kernel
  rw [encoded] at length
  have cut : [stream.take 100, stream.drop 100].flatten = stream := by simp
  refine ⟨stream, encoded, delivers _ cut (fittingReads_of_length_le ?_)⟩
  rw [cut, Option.some.inj length]
  decide

end Asyncmsg
