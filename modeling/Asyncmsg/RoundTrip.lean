import Mathlib.Data.List.TakeWhile
import Asyncmsg.Scan

namespace Asyncmsg
open Scanning

theorem slice_left {xs ys : List UInt8} {offset size : Nat} (before : xs.length = offset) :
    slice (xs ++ ys) offset size = ys.take size := by
  rw [slice, List.drop_left' before]

namespace PacketHeader

@[simp] theorem bytes_length (header : PacketHeader) : header.bytes.length = headerLength := by
  simp [bytes, header.deviceId_length, deviceIdSize, headerLength]

theorem length_bytes_append (header : PacketHeader) (tail : List UInt8) :
    headerLength ≤ (header.bytes ++ tail).length := by simp

/-- Reading a header back from its own bytes, whatever follows them. -/
theorem ofBytes_bytes (header : PacketHeader) (tail : List UInt8) :
    ofBytes (header.bytes ++ tail) (length_bytes_append header tail) = header := by
  obtain ⟨flag, cmd, seq, rsp, ec, deviceIdLen, deviceId, bodyLen, crc, size⟩ := header
  have past (x : UInt32) {n : Nat} (beyond : 4 ≤ n) : (hostToNetwork32 x).drop n = [] :=
    List.drop_eq_nil_of_le (by simpa using beyond)
  simp only [deviceIdSize] at size
  simp [ofBytes, bytes, slice, List.drop_append, size, deviceIdOffset, deviceIdSize,
    List.getElem?_append, past]

theorem bytes_head (header : PacketHeader) (tail : List UInt8) :
    (header.bytes ++ tail).head? = some header.flag := rfl

theorem withCrc_crc (header : PacketHeader) :
    header.withCrc.crc = calcCrc8 (header.bytes.take (headerLength - 1)) := by
  rw [withCrc]

/-- Setting the checksum does not touch the bytes it covers. -/
theorem withCrc_take (header : PacketHeader) :
    header.withCrc.bytes.take (headerLength - 1) = header.bytes.take (headerLength - 1) := by
  have front : headerLength - 1 = ([header.flag] ++ hostToNetwork32 header.cmd ++ hostToNetwork32 header.seq ++
      [header.rsp] ++ hostToNetwork32 header.ec ++ hostToNetwork32 header.deviceIdLen ++ header.deviceId ++
      hostToNetwork32 header.bodyLen).length := by
    simp [header.deviceId_length, deviceIdSize, headerLength]
  rw [bytes, bytes, front]
  exact List.take_left.trans List.take_left.symm

theorem headerAt_withCrc {header : PacketHeader} (flag : header.flag = packetBeginFlag) (tail : List UInt8) :
    HeaderAt (header.withCrc.bytes ++ tail) header.withCrc where
  whole := length_bytes_append _ tail
  same := (ofBytes_bytes _ tail).symm
  flag := by rw [bytes_head]; exact congrArg some flag
  crc := by
    rw [List.take_append_of_le_length (by simp [headerLength]), withCrc_take, withCrc_crc]

/-- The device id field stands behind the first 18 bytes. -/
theorem slice_deviceId (header : PacketHeader) (tail : List UInt8) {size : Nat} (within : size ≤ deviceIdSize) :
    slice (header.bytes ++ tail) deviceIdOffset size = header.deviceId.take size := by
  have parts : header.bytes ++ tail = ([header.flag] ++ hostToNetwork32 header.cmd ++ hostToNetwork32 header.seq ++
      [header.rsp] ++ hostToNetwork32 header.ec ++ hostToNetwork32 header.deviceIdLen) ++
      (header.deviceId ++ (hostToNetwork32 header.bodyLen ++ [header.crc] ++ tail)) := by
    simp [bytes]
  rw [parts, slice_left (by simp [deviceIdOffset]),
    List.take_append_of_le_length (within.trans header.deviceId_length.ge)]

end PacketHeader

/-- The device id the wire carries: zeros from the first zero on. -/
def nulPad (id : List UInt8) : List UInt8 :=
  cStr id ++ List.replicate (id.length - (cStr id).length) 0

theorem nulPad_of_nul_free {id : List UInt8} (nulFree : 0 ∉ id) : nulPad id = id := by
  have whole : cStr id = id := List.takeWhile_eq_self_iff.mpr fun b member => by
    simpa using fun zero : b = 0 => nulFree (zero ▸ member)
  rw [nulPad, whole, Nat.sub_self, List.replicate_zero, List.append_nil]

@[simp] theorem nulPad_length (id : List UInt8) : (nulPad id).length = id.length := by
  have copied := cStr_length_le id
  rw [nulPad, List.length_append, List.length_replicate]
  omega

namespace Packet

/-- The sealed header that the encoder writes. -/
def sealedHeader (pack : Packet) (short : pack.deviceId.length < deviceIdSize) : PacketHeader :=
  (pack.header short).withCrc

def frame (pack : Packet) (short : pack.deviceId.length < deviceIdSize) : List UInt8 :=
  (pack.sealedHeader short).bytes ++ pack.body.bytes

@[simp] theorem frame_length (pack : Packet) (short : pack.deviceId.length < deviceIdSize) :
    (pack.frame short).length = headerLength + pack.body.bytes.length := by
  rw [frame, List.length_append, PacketHeader.bytes_length]

theorem sealedHeader_deviceIdLen (pack : Packet) (short : pack.deviceId.length < deviceIdSize) :
    (pack.sealedHeader short).deviceIdLen.toNat = pack.deviceId.length := by
  have small : pack.deviceId.length < 64 := short
  exact (UInt32.toNat_ofNat' ..).trans (Nat.mod_eq_of_lt (by omega))

theorem headerAt_frame (pack : Packet) (short : pack.deviceId.length < deviceIdSize) (tail : List UInt8) :
    HeaderAt (pack.frame short ++ tail) (pack.sealedHeader short) := by
  rw [frame, List.append_assoc]
  exact PacketHeader.headerAt_withCrc rfl _

end Packet

theorem encodePacket_eq_some {pack : Packet} {bs : List UInt8} :
    encodePacket pack = some bs ↔
      ∃ short : pack.deviceId.length < deviceIdSize,
        pack.body.bytes.length < 2 ^ 32 - headerLength ∧ bs = pack.frame short := by
  have size := pack.body.size_lt
  have wrap : headerLength + pack.body.bytes.length ≤ (UInt32.ofNat headerLength + pack.body.size).toNat ↔
      pack.body.bytes.length < 2 ^ 32 - headerLength := by
    rw [UInt32.toNat_add, Ibuffer.size_toNat]
    simp only [headerLength, UInt32.toNat_ofNat']
    omega
  unfold encodePacket
  simp only [wrap]
  split
  · rename_i short
    split
    · rename_i fits
      simp only [Option.some.injEq, fits, true_and, short, exists_true_left]
      exact eq_comm
    · rename_i large
      simp only [reduceCtorEq, false_iff, not_exists, large, false_and, not_false_eq_true, implies_true]
  · rename_i long
    simp [long]

/-- The decoder's verdict on an encoded packet: a small one is cut whole, of a
large one only the header is skipped. -/
theorem packetVerdict_frame (pack : Packet) (short : pack.deviceId.length < deviceIdSize) (tail : List UInt8) :
    packetVerdict (pack.frame short ++ tail) =
      if maxBodyLength < pack.body.bytes.length then .skip headerLength
      else .frame (pack.frame short).length := by
  have bodyLen : (pack.sealedHeader short).bodyLen.toNat = pack.body.bytes.length := Ibuffer.size_toNat _
  rw [packetVerdict_header (pack.headerAt_frame short tail), bodyLen]
  split
  · rfl
  · rw [if_neg (by simp), Packet.frame_length]

namespace Packet
variable (pack : Packet) (short : pack.deviceId.length < deviceIdSize) (tail : List UInt8)

theorem frame_deviceId :
    slice (pack.frame short ++ tail) PacketHeader.deviceIdOffset pack.deviceId.length = nulPad pack.deviceId := by
  have copied := cStr_length_le pack.deviceId
  have field : (pack.sealedHeader short).deviceId =
      cStr pack.deviceId ++ List.replicate (deviceIdSize - (cStr pack.deviceId).length) 0 := rfl
  rw [frame, List.append_assoc, PacketHeader.slice_deviceId _ _ short.le, field, nulPad, List.take_append,
    List.take_of_length_le copied, List.take_replicate, Nat.min_eq_left (by omega)]

theorem frame_body : Ibuffer.copy pack.body.size ((pack.frame short ++ tail).drop headerLength) = pack.body := by
  ext1
  simp only [Ibuffer.copy, Ibuffer.size_toNat, frame, List.append_assoc,
    List.drop_left' (PacketHeader.bytes_length _), List.take_left]

end Packet

/-- What the decoder reads back from an encoded packet: the packet, with its
device id cut at the first zero and a zero sequence number replaced. -/
theorem readPacket_frame (seqGenerator : UInt32) (pack : Packet)
    (short : pack.deviceId.length < deviceIdSize) (tail : List UInt8)
    (whole : headerLength ≤ (pack.frame short ++ tail).length) :
    readPacket seqGenerator (pack.frame short ++ tail) whole =
      some (Packet.construct seqGenerator pack.cmd pack.rsp pack.body (nulPad pack.deviceId) pack.seq pack.ec) := by
  have header : PacketHeader.ofBytes (pack.frame short ++ tail) whole = pack.sealedHeader short :=
    (pack.headerAt_frame short tail).same.symm
  have idLen := pack.sealedHeader_deviceIdLen short
  have inside : ¬(pack.frame short ++ tail).length < PacketHeader.deviceIdOffset + pack.deviceId.length := by
    simp only [deviceIdSize, headerLength, PacketHeader.deviceIdOffset] at short whole ⊢
    omega
  have rsp : ((pack.sealedHeader short).rsp != 0) = pack.rsp := by
    change ((if pack.rsp then (1 : UInt8) else 0) != 0) = pack.rsp
    cases pack.rsp <;> rfl
  have body : (pack.sealedHeader short).bodyLen = pack.body.size := rfl
  rw [readPacket]
  simp only [header, idLen, inside, if_false, rsp, body, pack.frame_deviceId short tail, pack.frame_body short tail]
  rfl

/-- The concatenation of the encodings, when all packets can be encoded. -/
def encodeStream : List Packet → Option (List UInt8)
  | [] => some []
  | pack :: packs => (encodePacket pack).bind fun bs => (encodeStream packs).map fun rest => bs ++ rest

/-- What the encoder accepts and the decoder can read back, but for the size
of the body. -/
structure Packet.Sendable (pack : Packet) : Prop where
  short : pack.deviceId.length < deviceIdSize
  nulFree : 0 ∉ pack.deviceId
  seq : pack.seq ≠ 0
  fits : pack.body.bytes.length < 2 ^ 32 - headerLength

theorem encodeStream_cons {pack : Packet} (sendable : pack.Sendable) {packs : List Packet} {rest : List UInt8}
    (tail : encodeStream packs = some rest) :
    encodeStream (pack :: packs) = some (pack.frame sendable.short ++ rest) := by
  rw [encodeStream, encodePacket_eq_some.mpr ⟨sendable.short, sendable.fits, rfl⟩, tail]
  rfl

theorem encodeStream_exists {packs : List Packet} (sendable : ∀ pack ∈ packs, pack.Sendable) :
    ∃ stream, encodeStream packs = some stream := by
  induction packs with
  | nil => exact ⟨[], rfl⟩
  | cons pack packs ih =>
    obtain ⟨rest, tail⟩ := ih fun other member => sendable other (List.mem_cons_of_mem _ member)
    exact ⟨_, encodeStream_cons (sendable pack List.mem_cons_self) tail⟩

/-- A packet with a device id and a body of one byte. -/
def ping : Packet := ⟨1, 1, false, 0, [0x61], ⟨[0x55], by decide⟩⟩

/-- A response without a device id. -/
def pong : Packet := ⟨1, 1, true, 0, [], .empty⟩

/-- A sendable packet is read back unchanged and draws nothing from the generator. -/
theorem readPacket_frame_sendable (seqGenerator : UInt32) {pack : Packet} (sendable : pack.Sendable)
    (tail : List UInt8) (whole : headerLength ≤ (pack.frame sendable.short ++ tail).length) :
    readPacket seqGenerator (pack.frame sendable.short ++ tail) whole = some (pack, seqGenerator) := by
  rw [readPacket_frame, Packet.construct_of_ne_zero sendable.seq, nulPad_of_nul_free sendable.nulFree]

/-- Nothing is skipped in front of an encoded packet of permitted size. -/
theorem seek_frame {pack : Packet} (short : pack.deviceId.length < deviceIdSize)
    (small : pack.body.bytes.length ≤ maxBodyLength) (tail : List UInt8) :
    packetScanner.seek (pack.frame short ++ tail) = 0 :=
  Scanner.seek_settled fun n => by
    rw [packetScanner_classify, packetVerdict_frame, if_neg (by omega)]
    simp

/-- Decoding in front of an encoded packet of permitted size consumes exactly
its frame. -/
theorem decodePacket_frame (seqGenerator : UInt32) {pack : Packet} (short : pack.deviceId.length < deviceIdSize)
    (small : pack.body.bytes.length ≤ maxBodyLength) (tail : List UInt8) :
    decodePacket seqGenerator (pack.frame short ++ tail) =
      some ⟨some (Packet.construct seqGenerator pack.cmd pack.rsp pack.body (nulPad pack.deviceId) pack.seq pack.ec).1,
        (pack.frame short).length,
        (Packet.construct seqGenerator pack.cmd pack.rsp pack.body (nulPad pack.deviceId) pack.seq pack.ec).2⟩ := by
  have verdict := packetVerdict_frame pack short tail
  rw [if_neg (by omega)] at verdict
  have still := seek_frame short small tail
  have settled : packetVerdict ((pack.frame short ++ tail).drop (packetScanner.seek (pack.frame short ++ tail))) =
      .frame (pack.frame short).length := by
    rw [still, List.drop_zero]
    exact verdict
  obtain ⟨whole, found⟩ := decodePacket_of_frame seqGenerator settled
  simp only [still, List.drop_zero, Nat.zero_add] at found
  rw [found, readPacket_frame, Option.map_some]

theorem decodePacket_sendable (seqGenerator : UInt32) {pack : Packet} (sendable : pack.Sendable)
    (small : pack.body.bytes.length ≤ maxBodyLength) (tail : List UInt8) :
    decodePacket seqGenerator (pack.frame sendable.short ++ tail) =
      some ⟨some pack, (pack.frame sendable.short).length, seqGenerator⟩ := by
  rw [decodePacket_frame seqGenerator sendable.short small, Packet.construct_of_ne_zero sendable.seq,
    nulPad_of_nul_free sendable.nulFree]

end Asyncmsg
