import Asyncmsg.Packet

namespace Asyncmsg

def hostToNetwork32 (x : UInt32) : List UInt8 := BigEndian.bytes 4 x.toNat

def networkToHost32 (bs : List UInt8) : UInt32 := UInt32.ofNat (BigEndian.value bs)

@[simp] theorem hostToNetwork32_length (x : UInt32) : (hostToNetwork32 x).length = 4 :=
  BigEndian.bytes_length _ _

@[simp] theorem networkToHost32_hostToNetwork32 (x : UInt32) : networkToHost32 (hostToNetwork32 x) = x := by
  rw [networkToHost32, hostToNetwork32, BigEndian.value_bytes_of_lt x.toNat_lt, UInt32.ofNat_toNat]

def slice (bs : List UInt8) (offset size : Nat) : List UInt8 := (bs.drop offset).take size

theorem slice_append {bs : List UInt8} {offset size : Nat} (within : offset + size ≤ bs.length)
    (more : List UInt8) : slice (bs ++ more) offset size = slice bs offset size := by
  rw [slice, slice, List.drop_append_of_le_length (by omega),
    List.take_append_of_le_length (by simp only [List.length_drop]; omega)]

/-- The packed header. Multi-byte fields hold the host's value; on the wire
they stand in network order. -/
structure PacketHeader where
  flag : UInt8
  cmd : UInt32
  seq : UInt32
  rsp : UInt8
  ec : UInt32
  deviceIdLen : UInt32
  deviceId : List UInt8
  bodyLen : UInt32
  crc : UInt8
  deviceId_length : deviceId.length = deviceIdSize

namespace PacketHeader

def deviceIdOffset : Nat := 18

def bytes (header : PacketHeader) : List UInt8 :=
  [header.flag] ++ hostToNetwork32 header.cmd ++ hostToNetwork32 header.seq ++ [header.rsp] ++
    hostToNetwork32 header.ec ++ hostToNetwork32 header.deviceIdLen ++ header.deviceId ++
    hostToNetwork32 header.bodyLen ++ [header.crc]

def ofBytes (bs : List UInt8) (whole : headerLength ≤ bs.length) : PacketHeader where
  flag := bs.getD 0 0
  cmd := networkToHost32 (slice bs 1 4)
  seq := networkToHost32 (slice bs 5 4)
  rsp := bs.getD 9 0
  ec := networkToHost32 (slice bs 10 4)
  deviceIdLen := networkToHost32 (slice bs 14 4)
  deviceId := slice bs deviceIdOffset deviceIdSize
  bodyLen := networkToHost32 (slice bs 82 4)
  crc := bs.getD 86 0
  deviceId_length := by
    simp only [headerLength] at whole
    simp only [slice, List.length_take, List.length_drop, deviceIdOffset, deviceIdSize]
    omega

/-- The checksum covers everything but the checksum byte itself. -/
def withCrc (header : PacketHeader) : PacketHeader :=
  { header with crc := calcCrc8 (header.bytes.take (headerLength - 1)) }

end PacketHeader

/-- What `strcpy` copies before the terminating zero. -/
def cStr (s : List UInt8) : List UInt8 := s.takeWhile (· != 0)

theorem cStr_length_le (s : List UInt8) : (cStr s).length ≤ s.length :=
  (List.takeWhile_prefix _).length_le

namespace Packet

def header (pack : Packet) (short : pack.deviceId.length < deviceIdSize) : PacketHeader where
  flag := packetBeginFlag
  cmd := pack.cmd
  seq := pack.seq
  rsp := if pack.rsp then 1 else 0
  ec := pack.ec
  deviceIdLen := UInt32.ofNat pack.deviceId.length
  deviceId := cStr pack.deviceId ++ List.replicate (deviceIdSize - (cStr pack.deviceId).length) 0
  bodyLen := pack.body.size
  crc := 0
  deviceId_length := by
    have copied := cStr_length_le pack.deviceId
    rw [List.length_append, List.length_replicate]
    omega

end Packet

/-- Fails where the assertion on the device id does, or where the 32-bit
length of the output has wrapped around and the copies would leave it. -/
def encodePacket (pack : Packet) : Option (List UInt8) :=
  let dataLen := UInt32.ofNat headerLength + pack.body.size
  if short : pack.deviceId.length < deviceIdSize then
    if headerLength + pack.body.bytes.length ≤ dataLen.toNat then
      some ((pack.header short).withCrc.bytes ++ pack.body.bytes)
    else none
  else none

/-- `ibuffer(len, buf)`: a copy of the first `len` bytes. -/
def Ibuffer.copy (len : UInt32) (buf : List UInt8) : Ibuffer :=
  ⟨buf.take len.toNat, (List.length_take_le _ _).trans_lt len.toNat_lt⟩

/-- Build the packet whose complete frame starts at `bufValid`. The device id
length comes from the wire, so its copy may leave the buffer: then there is
no result. -/
def readPacket (seqGenerator : UInt32) (bufValid : List UInt8) (whole : headerLength ≤ bufValid.length) :
    Option (Packet × UInt32) :=
  let header := PacketHeader.ofBytes bufValid whole
  let deviceIdLen := header.deviceIdLen.toNat
  if bufValid.length < PacketHeader.deviceIdOffset + deviceIdLen then none
  else
    let deviceId := slice bufValid PacketHeader.deviceIdOffset deviceIdLen
    let body := Ibuffer.copy header.bodyLen (bufValid.drop headerLength)
    some (Packet.construct seqGenerator header.cmd (header.rsp != 0) body deviceId header.seq header.ec)

structure DecodeResult where
  pack : Option Packet
  consumeLen : Nat
  seqGenerator : UInt32
  deriving DecidableEq

/-- The inner loop: the first position from `consumeLen` on that holds the flag. -/
def skipToFlag (buf : List UInt8) (consumeLen : Nat) : Nat :=
  consumeLen + ((buf.drop consumeLen).takeWhile (· != packetBeginFlag)).length

/-- The resynchronising loop of the decoder. No result means that a byte
outside the buffer has been read. -/
def decodeLoop (seqGenerator : UInt32) (buf : List UInt8) (consumeLen : Nat) : Option DecodeResult :=
  let start := skipToFlag buf consumeLen
  let bufValid := buf.drop start
  if short : bufValid.length < headerLength then some ⟨none, start, seqGenerator⟩
  else
    let header := PacketHeader.ofBytes bufValid (not_lt.mp short)
    let bodyLen := header.bodyLen.toNat
    if calcCrc8 (bufValid.take (headerLength - 1)) ≠ header.crc then
      decodeLoop seqGenerator buf (start + 1)
    else if maxBodyLength < bodyLen then decodeLoop seqGenerator buf (start + headerLength)
    else if bufValid.length < headerLength + bodyLen then some ⟨none, start, seqGenerator⟩
    else
      (readPacket seqGenerator bufValid (not_lt.mp short)).map fun (pack, seqGenerator) =>
        ⟨some pack, start + (headerLength + bodyLen), seqGenerator⟩
termination_by buf.length - consumeLen
decreasing_by
  all_goals
    simp only [bufValid, List.length_drop, headerLength] at short
    simp only [start, skipToFlag, headerLength] at short ⊢
    omega

def decodePacket (seqGenerator : UInt32) (buf : List UInt8) : Option DecodeResult :=
  decodeLoop seqGenerator buf 0

end Asyncmsg
