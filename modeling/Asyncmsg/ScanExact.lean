import Asyncmsg.RoundTrip

namespace Asyncmsg
open Scanning

namespace PacketHeader

/-- The body is longer than any that is accepted. -/
def Oversize (header : PacketHeader) : Prop := maxBodyLength < header.bodyLen.toNat

/-- What stands in the header and behind it, as a packet; a zero sequence number
is replaced. -/
structure ReadAs (header : PacketHeader) (bs : List UInt8) (pack : Packet) : Prop where
  cmd : pack.cmd = header.cmd
  seq : header.seq ≠ 0 → pack.seq = header.seq
  rsp : pack.rsp = (header.rsp != 0)
  ec : pack.ec = header.ec
  deviceId : pack.deviceId = header.deviceId.take header.deviceIdLen.toNat
  body : pack.body.bytes = slice bs headerLength header.bodyLen.toNat

end PacketHeader

/-- An oversize header that the scan has come to and stepped over. -/
def SkippedAt (b : List UInt8) (p : Nat) : Prop :=
  packetScanner.Visited b p ∧ ∃ header, HeaderAt (b.drop p) header ∧ header.Oversize

/-- Every header in front of the offset is oversize, or lies among the bytes
that an oversize header has taken with it. -/
def Passed (b : List UInt8) (offset : Nat) : Prop :=
  ∀ q < offset, ∀ header, HeaderAt (b.drop q) header →
    header.Oversize ∨ ∃ p, SkippedAt b p ∧ p < q ∧ q < p + headerLength

theorem packetVerdict_skip {bs : List UInt8} {n : Nat} (verdict : packetVerdict bs = .skip n) :
    n = 1 ∧ (∀ header, ¬HeaderAt bs header) ∨ n = headerLength ∧ ∃ header, HeaderAt bs header ∧ header.Oversize := by
  by_cases found : ∃ header, HeaderAt bs header
  · obtain ⟨header, h⟩ := found
    rw [packetVerdict_header h] at verdict
    split at verdict
    · cases verdict
      exact Or.inr ⟨rfl, header, h, ‹_›⟩
    · split at verdict <;> cases verdict
  · rcases packetVerdict_no_header (not_exists.mp found) with ⟨other, _⟩ | ⟨other, _⟩
    · cases other.symm.trans verdict
      exact Or.inl ⟨rfl, not_exists.mp found⟩
    · cases other.symm.trans verdict

theorem packetVerdict_wait {bs : List UInt8} (verdict : packetVerdict bs = .wait) :
    bs = [] ∨ (bs.head? = some packetBeginFlag ∧ bs.length < headerLength) ∨
      ∃ header, HeaderAt bs header ∧ ¬header.Oversize ∧ bs.length < headerLength + header.bodyLen.toNat := by
  by_cases found : ∃ header, HeaderAt bs header
  · obtain ⟨header, h⟩ := found
    rw [packetVerdict_header h] at verdict
    split at verdict
    · cases verdict
    · split at verdict
      · exact Or.inr (Or.inr ⟨header, h, ‹_›, ‹_›⟩)
      · cases verdict
  · rcases packetVerdict_no_header (not_exists.mp found) with ⟨other, _⟩ | ⟨_, nil | short⟩
    · cases other.symm.trans verdict
    · exact Or.inl nil
    · exact Or.inr (Or.inl short)

/-- Whatever the scan leaves behind has been passed. -/
theorem passed_seek (b : List UInt8) : Passed b (packetScanner.seek b) := by
  intro q before header h
  obtain ⟨p, n, visited, verdict, lower, upper⟩ := Scanner.exists_visited before
  rcases packetVerdict_skip verdict with ⟨rfl, none⟩ | ⟨rfl, big, found, oversize⟩
  · cases show p = q by omega
    exact absurd h (none header)
  · rcases Nat.eq_or_lt_of_le lower with rfl | after
    · exact Or.inl (h.unique found ▸ oversize)
    · exact Or.inr ⟨p, ⟨visited, big, found, oversize⟩, after, upper⟩

theorem HeaderAt.deviceId {bs : List UInt8} {header : PacketHeader} (h : HeaderAt bs header) :
    header.deviceId = slice bs PacketHeader.deviceIdOffset deviceIdSize := by
  rw [h.same, PacketHeader.ofBytes]

/-- A packet whose device id stays in the header is read from its own frame. -/
theorem readPacket_readAs (seqGenerator : UInt32) {bs : List UInt8} {header : PacketHeader} (h : HeaderAt bs header)
    (short : header.deviceIdLen.toNat ≤ deviceIdSize) :
    ∃ pack gen', readPacket seqGenerator bs h.whole = some (pack, gen') ∧ header.ReadAs bs pack := by
  have whole := h.whole
  have inside : ¬bs.length < PacketHeader.deviceIdOffset + header.deviceIdLen.toNat := by
    simp only [PacketHeader.deviceIdOffset, deviceIdSize, headerLength] at short whole ⊢
    omega
  have field : slice bs PacketHeader.deviceIdOffset header.deviceIdLen.toNat =
      header.deviceId.take header.deviceIdLen.toNat := by
    rw [h.deviceId, slice, slice, List.take_take, Nat.min_eq_left short]
  have read : readPacket seqGenerator bs h.whole =
      some (Packet.construct seqGenerator header.cmd (header.rsp != 0)
        (Ibuffer.copy header.bodyLen (bs.drop headerLength))
        (slice bs PacketHeader.deviceIdOffset header.deviceIdLen.toNat) header.seq header.ec) := by
    rw [readPacket, ← h.same]
    exact if_neg inside
  rw [read]
  by_cases zero : header.seq = 0
  · rw [Packet.construct, if_pos zero]
    exact ⟨_, _, rfl, rfl, fun fresh => absurd zero fresh, rfl, rfl, field, rfl⟩
  · rw [Packet.construct_of_ne_zero zero]
    exact ⟨_, _, rfl, rfl, fun _ => rfl, rfl, rfl, field, rfl⟩

/-- A complete frame stands where the scan stops. -/
structure StopsAtFrame (b : List UInt8) (header : PacketHeader) : Prop where
  found : HeaderAt (b.drop (packetScanner.seek b)) header
  small : ¬header.Oversize
  whole : headerLength + header.bodyLen.toNat ≤ (b.drop (packetScanner.seek b)).length

theorem StopsAtFrame.verdict {b : List UInt8} {header : PacketHeader} (stops : StopsAtFrame b header) :
    packetVerdict (b.drop (packetScanner.seek b)) = .frame (headerLength + header.bodyLen.toNat) :=
  packetVerdict_frame_iff.mpr ⟨header, stops.found, not_lt.mp stops.small, rfl, stops.whole⟩

theorem waits_or_stopsAtFrame (b : List UInt8) :
    packetVerdict (b.drop (packetScanner.seek b)) = .wait ∨ ∃ header, StopsAtFrame b header := by
  rcases packetVerdict_seek b with waiting | ⟨size, verdict⟩
  · exact Or.inl waiting
  · obtain ⟨header, found, small, rfl, whole⟩ := packetVerdict_frame_iff.mp verdict
    exact Or.inr ⟨header, found, not_lt.mpr small, whole⟩

/-- The packet of a complete frame is returned at the offset where the scan stops. -/
theorem StopsAtFrame.decodePacket {b : List UInt8} {header : PacketHeader} (stops : StopsAtFrame b header)
    (seqGenerator : UInt32) (short : header.deviceIdLen.toNat ≤ deviceIdSize) :
    ∃ pack gen', decodePacket seqGenerator b = some ⟨some pack,
        packetScanner.seek b + (headerLength + header.bodyLen.toNat), gen'⟩ ∧
      header.ReadAs (b.drop (packetScanner.seek b)) pack := by
  obtain ⟨_, found⟩ := decodePacket_of_frame seqGenerator stops.verdict
  obtain ⟨pack, gen', read, same⟩ := readPacket_readAs seqGenerator stops.found short
  rw [read] at found
  exact ⟨pack, gen', found, same⟩

/-- A complete frame with no header in front of it is where the scan stops. -/
theorem seek_of_first {b : List UInt8} {o : Nat} {header : PacketHeader} (h : HeaderAt (b.drop o) header)
    (small : ¬header.Oversize) (first : ∀ q < o, ∀ other, ¬HeaderAt (b.drop q) other) :
    packetScanner.seek b = o := by
  have whole := h.whole
  rw [List.length_drop] at whole
  rcases Nat.lt_trichotomy (packetScanner.seek b) o with before | same | behind
  · have none := first _ before
    rcases waits_or_stopsAtFrame b with waiting | ⟨other, stops⟩
    · rcases packetVerdict_wait waiting with nil | ⟨_, short⟩ | ⟨other, found, _⟩
      · rw [List.drop_eq_nil_iff] at nil
        simp only [headerLength] at whole
        omega
      · rw [List.length_drop] at short
        omega
      · exact absurd found (none other)
    · exact absurd stops.found (none other)
  · exact same
  · rcases passed_seek b o behind header h with oversize | ⟨p, ⟨_, other, found, _⟩, before, _⟩
    · exact absurd oversize small
    · exact absurd found (first p before other)

/-- Exactness of the decoder: it returns the packet of a complete frame, or
nothing and keeps what may become one; whatever header it has passed was
oversize or lay behind an oversize one. A complete frame with no header in front
of it is returned. -/
theorem decodePacket_exact (seqGenerator : UInt32) {b : List UInt8}
    (short : ∀ o header, HeaderAt (b.drop o) header → ¬header.Oversize →
      header.deviceIdLen.toNat ≤ deviceIdSize) :
    ∃ result, decodePacket seqGenerator b = some result ∧ result.consumeLen ≤ b.length ∧
      ((∃ o header pack, result.pack = some pack ∧ HeaderAt (b.drop o) header ∧ ¬header.Oversize ∧
            o + headerLength + header.bodyLen.toNat ≤ b.length ∧ header.ReadAs (b.drop o) pack ∧
            result.consumeLen = o + headerLength + header.bodyLen.toNat ∧ Passed b o) ∨
        result.pack = none ∧ Passed b result.consumeLen ∧
          (b.drop result.consumeLen = [] ∨
            (b.drop result.consumeLen).head? = some packetBeginFlag ∧
              (b.drop result.consumeLen).length < headerLength ∨
            ∃ header, HeaderAt (b.drop result.consumeLen) header ∧ ¬header.Oversize ∧
              (b.drop result.consumeLen).length < headerLength + header.bodyLen.toNat)) ∧
      ∀ o header, HeaderAt (b.drop o) header → ¬header.Oversize →
        o + headerLength + header.bodyLen.toNat ≤ b.length → (∀ q < o, ∀ other, ¬HeaderAt (b.drop q) other) →
        ∃ pack, result.pack = some pack ∧ header.ReadAs (b.drop o) pack ∧
          result.consumeLen = o + headerLength + header.bodyLen.toNat := by
  have inside := Scanner.seek_le (S := packetScanner) b
  have passed := passed_seek b
  rcases waits_or_stopsAtFrame b with waiting | ⟨header, stops⟩
  · refine ⟨_, decodePacket_of_wait waiting, inside, Or.inr ⟨rfl, passed, packetVerdict_wait waiting⟩, ?_⟩
    intro o header h small whole first
    have stopped := seek_of_first h small first
    have framed := packetVerdict_frame_iff.mpr
      ⟨header, h, not_lt.mp small, rfl, by rw [List.length_drop]; omega⟩
    rw [stopped, framed] at waiting
    cases waiting
  · obtain ⟨h, small, whole⟩ := stops
    obtain ⟨pack, gen', decoded, same⟩ := StopsAtFrame.decodePacket ⟨h, small, whole⟩ seqGenerator (short _ _ h small)
    rw [List.length_drop] at whole
    refine ⟨_, decoded, by simp only; omega, Or.inl ⟨_, header, pack, rfl, h, small, by omega, same,
      (Nat.add_assoc ..).symm, passed⟩, ?_⟩
    intro o other h' small' _ first
    have stopped := seek_of_first h' small' first
    rw [stopped] at h same
    cases h.unique h'
    exact ⟨pack, rfl, same, by simp only [stopped]; omega⟩

/-- The frame of `ping` behind a byte that is no flag. -/
theorem decodePacket_exact_ping :
    ∃ result, decodePacket 7 (0 :: ping.frame (by decide)) = some result ∧ result.consumeLen ≤ 89 ∧
      ((∃ o header pack, result.pack = some pack ∧ HeaderAt ((0 :: ping.frame (by decide)).drop o) header ∧
            ¬header.Oversize ∧ o + headerLength + header.bodyLen.toNat ≤ 89 ∧
            header.ReadAs ((0 :: ping.frame (by decide)).drop o) pack ∧
            result.consumeLen = o + headerLength + header.bodyLen.toNat ∧ Passed (0 :: ping.frame (by decide)) o) ∨
        result.pack = none ∧ Passed (0 :: ping.frame (by decide)) result.consumeLen ∧
          ((0 :: ping.frame (by decide)).drop result.consumeLen = [] ∨
            ((0 :: ping.frame (by decide)).drop result.consumeLen).head? = some packetBeginFlag ∧
              ((0 :: ping.frame (by decide)).drop result.consumeLen).length < headerLength ∨
            ∃ header, HeaderAt ((0 :: ping.frame (by decide)).drop result.consumeLen) header ∧ ¬header.Oversize ∧
              ((0 :: ping.frame (by decide)).drop result.consumeLen).length <
                headerLength + header.bodyLen.toNat)) ∧
      ∃ pack, result.pack = some pack ∧
        (ping.sealedHeader (by decide)).ReadAs ((0 :: ping.frame (by decide)).drop 1) pack ∧ result.consumeLen = 89 := by
  have header := ping.headerAt_frame (by decide) []
  have length : (0 :: ping.frame (by decide)).length = 89 := by decide +kernel
  have first : ((0 :: ping.frame (by decide)).drop 0).head? ≠ some packetBeginFlag := by decide
  have third : ((0 :: ping.frame (by decide)).drop 2).head? ≠ some packetBeginFlag := by decide
  have none : ∀ q < 1, ∀ other, ¬HeaderAt ((0 :: ping.frame (by decide)).drop q) other := fun q before other found => by
    obtain rfl : q = 0 := by omega
    exact first found.flag
  have small : ¬(ping.sealedHeader (by decide)).Oversize := by
    rw [PacketHeader.Oversize]
    decide +kernel
  rw [List.append_nil] at header
  obtain ⟨result, decoded, consumed, either, found⟩ := decodePacket_exact 7 (b := 0 :: ping.frame (by decide))
    fun o other found _ => by
      have whole := found.whole
      rw [List.length_drop, length] at whole
      simp only [headerLength] at whole
      obtain rfl | rfl | rfl : o = 0 ∨ o = 1 ∨ o = 2 := by omega
      · exact absurd found.flag first
      · rw [← header.unique found, ping.sealedHeader_deviceIdLen]
        decide
      · exact absurd found.flag third
  rw [length] at consumed either found
  exact ⟨result, decoded, consumed, either,
    found 1 (ping.sealedHeader (by decide)) header small (by decide +kernel) none⟩

end Asyncmsg
