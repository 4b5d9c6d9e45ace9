import Asyncmsg.ReceiveSession
import Asyncmsg.RoundTrip

namespace Asyncmsg

/-- The packet can be encoded, and decoding its encoding consumes all of it and
returns the packet. -/
def Packet.Reencodes (pack : Packet) : Prop :=
  ∃ bs, encodePacket pack = some bs ∧
    ∀ seqGenerator, decodePacket seqGenerator bs = some ⟨some pack, bs.length, seqGenerator⟩

/-- No byte behind the first zero is anything but zero. -/
def ZeroTail (id : List UInt8) : Prop := ∀ b ∈ id.dropWhile (· != 0), b = 0

instance (id : List UInt8) : Decidable (ZeroTail id) := List.decidableBAll (fun b => b = 0) _

theorem nulPad_eq_iff {id : List UInt8} : nulPad id = id ↔ ZeroTail id := by
  have parts : id = cStr id ++ id.dropWhile (· != 0) := (List.takeWhile_append_dropWhile ..).symm
  have count : id.length - (cStr id).length = (id.dropWhile (· != 0)).length := by
    have total := congrArg List.length parts
    rw [List.length_append] at total
    omega
  rw [nulPad, count]
  nth_rewrite 3 [parts]
  rw [List.append_cancel_left_eq, ZeroTail]
  exact eq_comm.trans (List.eq_replicate_iff.trans (and_iff_right rfl))

/-- Exactly which packets survive another round over the wire. -/
theorem Packet.reencodes_iff {pack : Packet} (seq : pack.seq ≠ 0)
    (small : pack.body.bytes.length ≤ maxBodyLength) :
    pack.Reencodes ↔ pack.deviceId.length < deviceIdSize ∧ ZeroTail pack.deviceId := by
  have room : pack.body.bytes.length < 2 ^ 32 - headerLength := by
    simp only [maxBodyLength, headerLength] at small ⊢
    omega
  have back (short : pack.deviceId.length < deviceIdSize) (gen : UInt32) :
      decodePacket gen (pack.frame short) = some ⟨some { pack with deviceId := nulPad pack.deviceId },
        (pack.frame short).length, gen⟩ := by
    have round := decodePacket_frame gen short small []
    rwa [List.append_nil, Packet.construct_of_ne_zero seq] at round
  rw [← nulPad_eq_iff]
  constructor
  · rintro ⟨bs, encoded, decoded⟩
    obtain ⟨short, -, rfl⟩ := encodePacket_eq_some.mp encoded
    have same := (back short 0).symm.trans (decoded 0)
    simp only [Option.some.injEq, DecodeResult.mk.injEq, and_true] at same
    exact ⟨short, congrArg Packet.deviceId same⟩
  · rintro ⟨short, padded⟩
    refine ⟨_, encodePacket_eq_some.mpr ⟨short, room, rfl⟩, fun gen => ?_⟩
    rw [back short gen, padded]

/-- The device id of a decoded packet, as long as it stays in its field. -/
theorem HeaderAt.slice_deviceId {bs : List UInt8} {header : PacketHeader} (h : HeaderAt bs header) {size : Nat}
    (within : size ≤ deviceIdSize) :
    slice bs PacketHeader.deviceIdOffset size = header.deviceId.take size := by
  rw [h.same]
  change (bs.drop _).take size = ((bs.drop _).take deviceIdSize).take size
  rw [List.take_take, Nat.min_eq_left within]

/-- A decoded packet can be encoded and decoded back exactly when the header it
was read from declares fewer than 64 bytes of device id and these have nothing
but zeros behind the first zero. -/
theorem decodePacket_reencodes_iff {seqGenerator gen' : UInt32} {buf : List UInt8} {pack : Packet} {consumeLen : Nat}
    (decoded : decodePacket seqGenerator buf = some ⟨some pack, consumeLen, gen'⟩) :
    ∃ header, HeaderAt (buf.drop (packetScanner.seek buf)) header ∧
      (pack.Reencodes ↔ header.deviceIdLen.toNat < deviceIdSize ∧
        ZeroTail (header.deviceId.take header.deviceIdLen.toNat)) := by
  obtain ⟨header, body, h, bodyLen, small, inside, built⟩ := decodePacket_packet decoded
  have seq := Packet.construct_seq_ne_zero seqGenerator header.cmd (header.rsp != 0) body
    (slice (buf.drop (packetScanner.seek buf)) PacketHeader.deviceIdOffset header.deviceIdLen.toNat)
    header.seq header.ec
  have parts := Packet.construct_deviceId_body seqGenerator header.cmd (header.rsp != 0) body
    (slice (buf.drop (packetScanner.seek buf)) PacketHeader.deviceIdOffset header.deviceIdLen.toNat)
    header.seq header.ec
  rw [built] at seq parts
  obtain ⟨idEq, bodyEq⟩ := parts
  have idLen : pack.deviceId.length = header.deviceIdLen.toNat := by
    rw [idEq, slice, List.length_take, List.length_drop]
    omega
  refine ⟨header, h, ?_⟩
  rw [Packet.reencodes_iff seq (by rw [bodyEq, bodyLen]; exact small), idLen]
  refine and_congr_right fun short => ?_
  rw [idEq, h.slice_deviceId short.le]

theorem decodePacket_reencodes_ping :
    ∃ header, HeaderAt ((ping.frame (by decide)).drop (packetScanner.seek (ping.frame (by decide)))) header ∧
      (ping.Reencodes ↔ header.deviceIdLen.toNat < deviceIdSize ∧
        ZeroTail (header.deviceId.take header.deviceIdLen.toNat)) := by
  have decoded : decodePacket 0 (ping.frame (by decide)) = some ⟨some ping, 88, 0⟩ := by decide +kernel
  exact decodePacket_reencodes_iff decoded

/-- A header that declares a device id of the whole field. -/
def fullIdHeader : PacketHeader where
  flag := packetBeginFlag
  cmd := 1
  seq := 1
  rsp := 0
  ec := 0
  deviceIdLen := 64
  deviceId := List.replicate 64 0x61
  bodyLen := 0
  crc := 0
  deviceId_length := rfl

/-- The decoder accepts a device id of 64 bytes, which the encoder refuses. -/
theorem decodePacket_full_id :
    ¬∀ seqGenerator buf pack consumeLen gen',
      decodePacket seqGenerator buf = some ⟨some pack, consumeLen, gen'⟩ → pack.Reencodes := by
  intro claim
  have decoded : decodePacket 0 fullIdHeader.withCrc.bytes =
      some ⟨some ⟨1, 1, false, 0, List.replicate 64 0x61, Ibuffer.empty⟩, 87, 0⟩ := by decide +kernel
  obtain ⟨bs, encoded, -⟩ := claim _ _ _ _ _ decoded
  have refused : encodePacket ⟨1, 1, false, 0, List.replicate 64 0x61, Ibuffer.empty⟩ = none := by decide +kernel
  cases refused.symm.trans encoded

end Asyncmsg
