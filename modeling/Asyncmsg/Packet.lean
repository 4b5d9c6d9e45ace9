import Mathlib.Data.UInt
import Asyncmsg.Crc
import Asyncmsg.Library.BigEndian

namespace Asyncmsg

def packetBeginFlag : UInt8 := 0x55
def deviceIdSize : Nat := 64
def headerLength : Nat := 87
def maxBodyLength : Nat := 16 * 1024
def heartbeatCmd : UInt32 := 0

/-- An owned byte buffer whose length is a 32-bit word. -/
@[ext] structure Ibuffer where
  bytes : List UInt8
  size_lt : bytes.length < 2 ^ 32
  deriving DecidableEq

namespace Ibuffer

def empty : Ibuffer := ⟨[], by decide⟩

def size (b : Ibuffer) : UInt32 := UInt32.ofNat b.bytes.length

@[simp] theorem size_toNat (b : Ibuffer) : b.size.toNat = b.bytes.length := by
  simpa only [size, UInt32.toNat_ofNat'] using Nat.mod_eq_of_lt b.size_lt

end Ibuffer

structure Packet where
  cmd : UInt32
  seq : UInt32
  rsp : Bool
  ec : UInt32
  deviceId : List UInt8
  body : Ibuffer
  deriving DecidableEq

/-- The generator after one call, which is also the number the call returns. -/
def nextSeq (seqGenerator : UInt32) : UInt32 :=
  (if seqGenerator = 0xffffffff then 0 else seqGenerator) + 1

/-- The constructor: a zero sequence number asks the generator for a fresh one. -/
def Packet.construct (seqGenerator cmd : UInt32) (rsp : Bool) (body : Ibuffer) (deviceId : List UInt8)
    (seq ec : UInt32) : Packet × UInt32 :=
  if seq = 0 then (⟨cmd, nextSeq seqGenerator, rsp, ec, deviceId, body⟩, nextSeq seqGenerator)
  else (⟨cmd, seq, rsp, ec, deviceId, body⟩, seqGenerator)

def packetId (cmd seq : UInt32) : UInt64 := cmd.toUInt64 <<< 31 ||| seq.toUInt64

def Packet.id (pack : Packet) : UInt64 := packetId pack.cmd pack.seq

def buildReqPacket (seqGenerator cmd : UInt32) (body : Ibuffer) (deviceId : List UInt8) : Packet × UInt32 :=
  Packet.construct seqGenerator cmd false body deviceId 0 0

def buildRspPacket (seqGenerator cmd seq ec : UInt32) (deviceId : List UInt8) (body : Ibuffer) :
    Packet × UInt32 :=
  Packet.construct seqGenerator cmd true body deviceId seq ec

theorem toNat_lt_of_ne {seqGenerator : UInt32} (below : seqGenerator ≠ 0xffffffff) :
    seqGenerator.toNat < 4294967295 :=
  Nat.lt_of_le_of_ne (Nat.le_of_lt_succ seqGenerator.toNat_lt) fun top => below (UInt32.toNat_inj.mp top)

/-- The numbers go round from 2^32 - 1 to one. -/
theorem toNat_nextSeq (seqGenerator : UInt32) :
    (nextSeq seqGenerator).toNat = seqGenerator.toNat % 4294967295 + 1 := by
  unfold nextSeq
  split
  · rename_i top
    rw [top]
    rfl
  · rename_i below
    have bound := toNat_lt_of_ne below
    rw [UInt32.toNat_add, UInt32.toNat_one]
    omega

theorem nextSeq_ne_zero (seqGenerator : UInt32) : nextSeq seqGenerator ≠ 0 := fun wrapped => by
  have positive := toNat_nextSeq seqGenerator
  rw [wrapped, UInt32.toNat_zero] at positive
  omega

/-- The number that the call after so many others returns. -/
theorem toNat_iterate_nextSeq (first : UInt32) (k : Nat) :
    (nextSeq^[k + 1] first).toNat = (first.toNat + k) % 4294967295 + 1 := by
  induction k with
  | zero => exact toNat_nextSeq first
  | succ k ih =>
    rw [Function.iterate_succ_apply', toNat_nextSeq, ih]
    omega

/-- No packet carries the sequence number zero, whatever was asked for. -/
theorem Packet.construct_seq_ne_zero (seqGenerator cmd : UInt32) (rsp : Bool) (body : Ibuffer)
    (deviceId : List UInt8) (seq ec : UInt32) :
    (Packet.construct seqGenerator cmd rsp body deviceId seq ec).1.seq ≠ 0 := by
  unfold Packet.construct
  split
  · exact nextSeq_ne_zero _
  · assumption

theorem Packet.construct_deviceId_body (seqGenerator cmd : UInt32) (rsp : Bool) (body : Ibuffer)
    (deviceId : List UInt8) (seq ec : UInt32) :
    (Packet.construct seqGenerator cmd rsp body deviceId seq ec).1.deviceId = deviceId ∧
      (Packet.construct seqGenerator cmd rsp body deviceId seq ec).1.body = body := by
  unfold Packet.construct
  split <;> exact ⟨rfl, rfl⟩

theorem Packet.construct_ec (seqGenerator cmd : UInt32) (rsp : Bool) (body : Ibuffer)
    (deviceId : List UInt8) (seq ec : UInt32) :
    (Packet.construct seqGenerator cmd rsp body deviceId seq ec).1.ec = ec := by
  unfold Packet.construct
  split <;> rfl

theorem Packet.construct_of_ne_zero {seqGenerator cmd : UInt32} {rsp : Bool} {body : Ibuffer}
    {deviceId : List UInt8} {seq ec : UInt32} (fresh : seq ≠ 0) :
    Packet.construct seqGenerator cmd rsp body deviceId seq ec =
      (⟨cmd, seq, rsp, ec, deviceId, body⟩, seqGenerator) :=
  if_neg fresh

/-- The disjunction of a number with a single low bit. -/
theorem or_bit (c h : Nat) (bit : h < 2) : c ||| h = c / 2 * 2 + max (c % 2) h := by
  have high : (c ||| h) / 2 = c / 2 := by rw [Nat.or_div_two, Nat.div_eq_of_lt bit, Nat.or_zero]
  have low : (c ||| h) % 2 = 1 ↔ c % 2 = 1 ∨ h % 2 = 1 := Nat.or_mod_two_eq_one
  omega

/-- The key in numbers: bit 31 of the sequence number falls on the lowest
bit of the command, which the shift by 31 has put at the same place. -/
theorem packetId_toNat (cmd seq : UInt32) :
    (packetId cmd seq).toNat =
      (cmd.toNat / 2 * 2 + max (cmd.toNat % 2) (seq.toNat / 2 ^ 31)) * 2 ^ 31 + seq.toNat % 2 ^ 31 := by
  have cmdBound := cmd.toNat_lt
  have seqBound := seq.toNat_lt
  have shifted : (cmd.toUInt64 <<< 31).toNat = cmd.toNat * 2 ^ 31 := by
    rw [UInt64.toNat_shiftLeft, UInt32.toNat_toUInt64, Nat.shiftLeft_eq]
    exact Nat.mod_eq_of_lt (by simp only [UInt64.reduceToNat, Nat.reduceMod, Nat.reducePow]; omega)
  have whole : (packetId cmd seq).toNat = cmd.toNat * 2 ^ 31 ||| seq.toNat := by
    rw [packetId, UInt64.toNat_or, shifted, UInt32.toNat_toUInt64]
  have high : (cmd.toNat * 2 ^ 31 ||| seq.toNat) / 2 ^ 31 = cmd.toNat ||| seq.toNat / 2 ^ 31 := by
    rw [Nat.or_div_two_pow, Nat.mul_div_cancel _ (by decide)]
  have low : (cmd.toNat * 2 ^ 31 ||| seq.toNat) % 2 ^ 31 = seq.toNat % 2 ^ 31 := by
    rw [Nat.or_mod_two_pow, Nat.mul_mod_left, Nat.zero_or]
  rw [whole, ← or_bit _ _ (by omega), ← high, ← low, Nat.div_add_mod']

/-- Exactly which pairs share a key: they agree outside the lowest bit of the
command and the highest bit of the sequence number, and in the disjunction of
these two bits. -/
theorem packetId_eq_iff (cmd seq cmd' seq' : UInt32) :
    packetId cmd seq = packetId cmd' seq' ↔
      cmd.toNat / 2 = cmd'.toNat / 2 ∧ seq.toNat % 2 ^ 31 = seq'.toNat % 2 ^ 31 ∧
        (cmd.toNat % 2 = 1 ∨ 2 ^ 31 ≤ seq.toNat ↔ cmd'.toNat % 2 = 1 ∨ 2 ^ 31 ≤ seq'.toNat) := by
  have bound := seq.toNat_lt
  have bound' := seq'.toNat_lt
  rw [← UInt64.toNat_inj, packetId_toNat, packetId_toNat]
  omega

/-- Below 2^31 the key determines the pair. -/
theorem packetId_injective_of_lt {cmd seq cmd' seq' : UInt32} (small : seq.toNat < 2 ^ 31)
    (small' : seq'.toNat < 2 ^ 31) (same : packetId cmd seq = packetId cmd' seq') :
    cmd = cmd' ∧ seq = seq' := by
  obtain ⟨high, low, bit⟩ := (packetId_eq_iff _ _ _ _).mp same
  exact ⟨UInt32.toNat_inj.mp (by omega), UInt32.toNat_inj.mp (by omega)⟩

end Asyncmsg
