import Asyncmsg.Binding
import Asyncmsg.Client
import Asyncmsg.Rpc

namespace Asyncmsg

/-- The answer of `tcp_server::on_receive_request` to a heartbeat. -/
def heartbeatResponse (seqGenerator : UInt32) (pack : Packet) : Packet × UInt32 :=
  buildRspPacket seqGenerator pack.cmd pack.seq 0 pack.deviceId .empty

/-- The acknowledgement of `tcp_client::on_receive_request`. -/
def clientAck (seqGenerator : UInt32) (deviceId : List UInt8) (pack : Packet) : Packet × UInt32 :=
  buildRspPacket seqGenerator pack.cmd pack.seq 0 deviceId .empty

theorem Client.acknowledge_eq (c : Client) (i : Nat) (pack : Packet) (deviceId : List UInt8) :
    c.acknowledge i pack deviceId =
      { c with
        seqGenerator := (clientAck c.seqGenerator deviceId pack).2
        acks := c.acks ++ [⟨i, (clientAck c.seqGenerator deviceId pack).1, (c.channelAt pack.cmd).isSome⟩] } := rfl

section Answers
variable {Message : Type*} (proto : Protobuf Message)

/-- What an endpoint answers to a request that it has been passed with a device
id, and the generator behind the answer. -/
inductive Answers (deviceId : List UInt8) (pack : Packet) (seqGenerator : UInt32) : Packet × UInt32 → Prop
  | heartbeat : Answers deviceId pack seqGenerator (heartbeatResponse seqGenerator pack)
  | client : Answers deviceId pack seqGenerator (clientAck seqGenerator deviceId pack)
  | rpc {result answer} : proto.buildResponsePacket seqGenerator pack result = some answer →
      Answers deviceId pack seqGenerator answer

variable {proto} {deviceId : List UInt8} {pack : Packet} {seqGenerator : UInt32} {answer : Packet × UInt32}

/-- Every answer is a response packet that can be encoded. -/
theorem Answers.built (answers : Answers proto deviceId pack seqGenerator answer)
    (short : pack.deviceId.length < deviceIdSize) (short' : deviceId.length < deviceIdSize) :
    ∃ ec id b, answer = buildRspPacket seqGenerator pack.cmd pack.seq ec id b ∧ id.length < deviceIdSize ∧
      b.bytes.length < 2 ^ 31 := by
  cases answers with
  | heartbeat => exact ⟨0, _, .empty, rfl, short, by decide⟩
  | client => exact ⟨0, _, .empty, rfl, short', by decide⟩
  | @rpc result answer built =>
    cases result with
    | error ec =>
      cases built
      exact ⟨ec, _, .empty, rfl, short, by decide⟩
    | ok message =>
      obtain ⟨b, written, rfl⟩ := Option.map_eq_some_iff.mp built
      exact ⟨0, _, b, rfl, short, (Protobuf.body_eq_some written).2⟩

/-- The frame of an answer carries the command and the sequence number of the
packet answered, and the answer draws nothing from the generator. -/
theorem Answers.header (answers : Answers proto deviceId pack seqGenerator answer) (seq : pack.seq ≠ 0)
    (short : pack.deviceId.length < deviceIdSize) (short' : deviceId.length < deviceIdSize) :
    ∃ bs header, encodePacket answer.1 = some bs ∧ HeaderAt bs header ∧ header.cmd = pack.cmd ∧
      header.seq = pack.seq ∧ answer.2 = seqGenerator := by
  obtain ⟨ec, id, b, rfl, idShort, small⟩ := answers.built short short'
  rw [buildRspPacket, Packet.construct_of_ne_zero seq]
  have found := Packet.headerAt_frame ⟨pack.cmd, pack.seq, true, ec, id, b⟩ idShort []
  rw [List.append_nil] at found
  refine ⟨_, _, encodePacket_eq_some.mpr ⟨idShort, ?_, rfl⟩, found, rfl, rfl, rfl⟩
  simp only [headerLength]
  omega

end Answers

/-- `process_packet` passes a request on with its own device id. -/
theorem Receiver.handle_request {seqGenerator : UInt32} {ownId deviceId : List UInt8} {pack : Packet}
    (passed : .request deviceId pack ∈ ((⟨seqGenerator, ownId, []⟩ : Receiver).handle pack).1.events) :
    deviceId = pack.deviceId := by
  rcases Receiver.handle_cases ⟨seqGenerator, ownId, []⟩ pack with
    ⟨_, same⟩ | ⟨_, _, same⟩ | ⟨_, _, same⟩ | ⟨_, _, _, same⟩ <;> rw [same] at passed <;>
    cases rsp : pack.rsp <;> simp_all [Receiver.emit, Packet.delivery]

/-- The decoder keeps the command of the frame; it keeps the sequence number and
leaves the generator alone exactly if the number is not zero. -/
theorem decodePacket_seq_iff {seqGenerator gen' : UInt32} {buf : List UInt8} {pack : Packet} {consumeLen : Nat}
    {wire : PacketHeader} (decoded : decodePacket seqGenerator buf = some ⟨some pack, consumeLen, gen'⟩)
    (frame : HeaderAt (buf.drop (packetScanner.seek buf)) wire) :
    pack.cmd = wire.cmd ∧ pack.seq ≠ 0 ∧ (pack.seq = wire.seq ∧ gen' = seqGenerator ↔ wire.seq ≠ 0) := by
  obtain ⟨header, body, found, _, _, _, built⟩ := decodePacket_packet decoded
  cases found.unique frame
  have fresh := Packet.construct_seq_ne_zero seqGenerator wire.cmd (wire.rsp != 0) body
    (slice (buf.drop (packetScanner.seek buf)) PacketHeader.deviceIdOffset wire.deviceIdLen.toNat) wire.seq wire.ec
  rw [built] at fresh
  by_cases zero : wire.seq = 0
  · rw [Packet.construct, if_pos zero] at built
    cases built
    refine ⟨rfl, fresh, ?_⟩
    simp only [zero, ne_eq, not_true_eq_false, iff_false, not_and]
    exact fun drawn => absurd drawn (nextSeq_ne_zero _)
  · rw [Packet.construct_of_ne_zero zero] at built
    cases built
    exact ⟨rfl, fresh, by simp [zero]⟩

/-- The acknowledgement of a request carries the command and the sequence number
that stood on the wire, and handling the request draws nothing from the
generator, exactly if the sequence number on the wire is not zero. -/
theorem answers_correlate_iff {Message : Type*} {proto : Protobuf Message} {seqGenerator gen' ackGenerator : UInt32}
    {buf ownId deviceId : List UInt8} {pack : Packet} {consumeLen : Nat} {wire : PacketHeader}
    {answer : Packet × UInt32} (decoded : decodePacket seqGenerator buf = some ⟨some pack, consumeLen, gen'⟩)
    (frame : HeaderAt (buf.drop (packetScanner.seek buf)) wire)
    (passed : .request deviceId pack ∈ ((⟨gen', ownId, []⟩ : Receiver).handle pack).1.events)
    (short : pack.deviceId.length < deviceIdSize) (answers : Answers proto deviceId pack ackGenerator answer) :
    ((∃ bs header, encodePacket answer.1 = some bs ∧ HeaderAt bs header ∧ header.cmd = wire.cmd ∧
        header.seq = wire.seq) ∧ gen' = seqGenerator ∧ answer.2 = ackGenerator) ↔ wire.seq ≠ 0 := by
  obtain ⟨cmd, fresh, correlated⟩ := decodePacket_seq_iff decoded frame
  obtain ⟨bs, header, encoded, found, sameCmd, sameSeq, kept⟩ :=
    answers.header fresh short (Receiver.handle_request passed ▸ short)
  rw [← correlated]
  constructor
  · rintro ⟨⟨bs', header', encoded', found', _, seq⟩, still, _⟩
    cases encoded.symm.trans encoded'
    cases found.unique found'
    exact ⟨sameSeq.symm.trans seq, still⟩
  · rintro ⟨seq, still⟩
    exact ⟨⟨bs, header, encoded, found, sameCmd.trans cmd, sameSeq.trans seq⟩, still, kept⟩

theorem answers_correlate_ping :
    ∃ bs header, encodePacket (clientAck 7 [0x61] ping).1 = some bs ∧ HeaderAt bs header ∧ header.cmd = 1 ∧
      header.seq = 1 := by
  have short : ping.deviceId.length < deviceIdSize := by decide
  have decoded := decodePacket_frame 7 short (by decide) []
  have still := seek_frame short (by decide) []
  have frame := ping.headerAt_frame short []
  rw [← List.drop_zero (l := ping.frame short ++ []), ← still] at frame
  have passed : .request [0x61] ping ∈ ((⟨7, [0x61], []⟩ : Receiver).handle ping).1.events := by decide
  have answers : Answers boolMessage [0x61] ping 7 (clientAck 7 [0x61] ping) := .client
  exact ((answers_correlate_iff decoded frame passed short answers).mpr (by decide : (1 : UInt32) ≠ 0)).1

/-- A heartbeat whose sequence number is zero on the wire. -/
def zeroHeartbeat : Packet := ⟨0, 0, false, 0, [0x61], .empty⟩

/-- It is answered with a number drawn from the generator. -/
theorem zeroHeartbeat_uncorrelated :
    ¬∀ (seqGenerator gen' ackGenerator : UInt32) (buf ownId deviceId : List UInt8) (pack : Packet)
      (consumeLen : Nat) (wire : PacketHeader) (answer : Packet × UInt32),
      decodePacket seqGenerator buf = some ⟨some pack, consumeLen, gen'⟩ →
      HeaderAt (buf.drop (packetScanner.seek buf)) wire →
      .request deviceId pack ∈ ((⟨gen', ownId, []⟩ : Receiver).handle pack).1.events →
      pack.deviceId.length < deviceIdSize → Answers boolMessage deviceId pack ackGenerator answer →
      (∃ bs header, encodePacket answer.1 = some bs ∧ HeaderAt bs header ∧ header.cmd = wire.cmd ∧
        header.seq = wire.seq) ∧ gen' = seqGenerator ∧ answer.2 = ackGenerator := by
  intro claim
  have short : zeroHeartbeat.deviceId.length < deviceIdSize := by decide
  have decoded := decodePacket_frame 0 short (by decide) []
  have still := seek_frame short (by decide) []
  have frame := zeroHeartbeat.headerAt_frame short []
  rw [← List.drop_zero (l := zeroHeartbeat.frame short ++ []), ← still] at frame
  have unchanged := (claim 0 _ 1 _ [0x61] [0x61] _ _ _ _ decoded frame (by decide) (by decide) .heartbeat).2.1
  revert unchanged
  decide

end Asyncmsg
