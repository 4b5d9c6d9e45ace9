import Asyncmsg.Codec
import Asyncmsg.Library.Scanner

namespace Asyncmsg
open Scanning

/-- The input starts with a whole header that carries the flag and a correct
checksum. -/
structure HeaderAt (bs : List UInt8) (header : PacketHeader) : Prop where
  whole : headerLength ≤ bs.length
  same : header = .ofBytes bs whole
  flag : bs.head? = some packetBeginFlag
  crc : calcCrc8 (bs.take (headerLength - 1)) = header.crc

theorem PacketHeader.ofBytes_append {bs : List UInt8} (whole : headerLength ≤ bs.length) (more : List UInt8)
    (longer : headerLength ≤ (bs ++ more).length) : ofBytes (bs ++ more) longer = ofBytes bs whole := by
  simp only [headerLength] at whole
  have byte {i : Nat} (within : i < 87) : (bs ++ more).getD i 0 = bs.getD i 0 := by
    rw [List.getD_eq_getElem?_getD, List.getD_eq_getElem?_getD, List.getElem?_append_left (by omega)]
  have field {offset size : Nat} (within : offset + size ≤ 87) :
      slice (bs ++ more) offset size = slice bs offset size := slice_append (by omega) more
  simp only [ofBytes, byte, field, deviceIdOffset, deviceIdSize, Nat.reduceAdd, Nat.reduceLT, Nat.reduceLeDiff]

theorem HeaderAt.append {bs : List UInt8} {header : PacketHeader} (h : HeaderAt bs header) (more : List UInt8) :
    HeaderAt (bs ++ more) header := by
  have longer : headerLength ≤ (bs ++ more).length := h.whole.trans (by simp)
  refine ⟨longer, ?_, ?_, ?_⟩
  · exact h.same.trans (PacketHeader.ofBytes_append h.whole more longer).symm
  · rw [List.head?_append, h.flag, Option.some_or]
  · rw [List.take_append_of_le_length (le_trans (Nat.sub_le _ _) h.whole), h.crc]

theorem HeaderAt.unique {bs : List UInt8} {header header' : PacketHeader} (h : HeaderAt bs header)
    (h' : HeaderAt bs header') : header = header' := h.same.trans h'.same.symm

/-- The decision of one round of the decoding loop on what it has before it. -/
def packetVerdict (bs : List UInt8) : Verdict :=
  if bs.head? = some packetBeginFlag then
    if whole : headerLength ≤ bs.length then
      let header := PacketHeader.ofBytes bs whole
      if calcCrc8 (bs.take (headerLength - 1)) ≠ header.crc then .skip 1
      else if maxBodyLength < header.bodyLen.toNat then .skip headerLength
      else if bs.length < headerLength + header.bodyLen.toNat then .wait
      else .frame (headerLength + header.bodyLen.toNat)
    else .wait
  else if bs = [] then .wait
  else .skip 1

theorem packetVerdict_header {bs : List UInt8} {header : PacketHeader} (h : HeaderAt bs header) :
    packetVerdict bs =
      if maxBodyLength < header.bodyLen.toNat then .skip headerLength
      else if bs.length < headerLength + header.bodyLen.toNat then .wait
      else .frame (headerLength + header.bodyLen.toNat) := by
  obtain ⟨whole, rfl, flag, crc⟩ := h
  simp only [packetVerdict, flag, if_true, whole, dite_true, crc, ne_eq, not_true_eq_false, if_false]

/-- The round that reaches no header: a byte is dropped, or more are needed. -/
theorem packetVerdict_no_header {bs : List UInt8} (none : ∀ header, ¬HeaderAt bs header) :
    packetVerdict bs = .skip 1 ∧ bs ≠ [] ∨
      packetVerdict bs = .wait ∧ (bs = [] ∨ bs.head? = some packetBeginFlag ∧ bs.length < headerLength) := by
  unfold packetVerdict
  split
  · rename_i flag
    split
    · rename_i whole
      have mismatch : calcCrc8 (bs.take (headerLength - 1)) ≠ (PacketHeader.ofBytes bs whole).crc :=
        fun crc => none _ ⟨whole, rfl, flag, crc⟩
      simp only [mismatch, ne_eq, not_false_eq_true, if_true, true_and]
      exact Or.inl fun nil => by simp [nil] at flag
    · rename_i short
      exact Or.inr ⟨rfl, Or.inr ⟨flag, not_le.mp short⟩⟩
  · split
    · rename_i nil
      exact Or.inr ⟨rfl, Or.inl nil⟩
    · rename_i cons
      exact Or.inl ⟨rfl, cons⟩

theorem packetVerdict_frame_iff {bs : List UInt8} {size : Nat} :
    packetVerdict bs = .frame size ↔
      ∃ header, HeaderAt bs header ∧ header.bodyLen.toNat ≤ maxBodyLength ∧
        size = headerLength + header.bodyLen.toNat ∧ size ≤ bs.length := by
  constructor
  · intro verdict
    by_cases found : ∃ header, HeaderAt bs header
    · obtain ⟨header, h⟩ := found
      rw [packetVerdict_header h] at verdict
      split at verdict
      · cases verdict
      · split at verdict
        · cases verdict
        · cases verdict
          exact ⟨header, h, by omega, rfl, by omega⟩
    · rcases packetVerdict_no_header (not_exists.mp found) with ⟨other, _⟩ | ⟨other, _⟩ <;>
        simp [other] at verdict
  · rintro ⟨header, h, small, rfl, within⟩
    rw [packetVerdict_header h, if_neg (by omega), if_neg (by omega)]

theorem packetVerdict_skip_bound {bs : List UInt8} {n : Nat} (verdict : packetVerdict bs = .skip n) :
    0 < n ∧ n ≤ bs.length := by
  by_cases found : ∃ header, HeaderAt bs header
  · obtain ⟨header, h⟩ := found
    have whole := h.whole
    rw [packetVerdict_header h] at verdict
    split at verdict
    · cases verdict
      exact ⟨by decide, whole⟩
    · split at verdict <;> cases verdict
  · rcases packetVerdict_no_header (not_exists.mp found) with ⟨other, cons⟩ | ⟨other, _⟩
    · cases other.symm.trans verdict
      exact ⟨Nat.one_pos, List.length_pos_iff.mpr cons⟩
    · simp [other] at verdict

theorem packetVerdict_append {bs : List UInt8} (more : List UInt8) (decided : packetVerdict bs ≠ .wait) :
    packetVerdict (bs ++ more) = packetVerdict bs := by
  by_cases found : ∃ header, HeaderAt bs header
  · obtain ⟨header, h⟩ := found
    rw [packetVerdict_header h] at decided ⊢
    rw [packetVerdict_header (h.append more)]
    split
    · rfl
    · rename_i small
      rw [if_neg small] at decided
      have complete : ¬bs.length < headerLength + header.bodyLen.toNat := fun short => decided (if_pos short)
      rw [if_neg complete, if_neg (by rw [List.length_append]; omega)]
  · obtain ⟨dropped, cons⟩ := (packetVerdict_no_header (not_exists.mp found)).resolve_right
      fun waiting => decided waiting.1
    have head : (bs ++ more).head? = bs.head? := List.head?_append_of_ne_nil _ cons
    rw [dropped]
    by_cases flag : bs.head? = some packetBeginFlag
    · have whole : headerLength ≤ bs.length := by
        by_contra short
        simp [packetVerdict, flag, short] at dropped
      have mismatch : calcCrc8 (bs.take (headerLength - 1)) ≠ (PacketHeader.ofBytes bs whole).crc :=
        fun crc => found ⟨_, whole, rfl, flag, crc⟩
      have longer : headerLength ≤ (bs ++ more).length := whole.trans (by simp)
      simp only [packetVerdict, head, flag, if_true, longer, dite_true,
        PacketHeader.ofBytes_append whole more longer,
        List.take_append_of_le_length (le_trans (Nat.sub_le _ _) whole), if_pos mismatch]
    · simp [packetVerdict, head, flag, cons]

/-- The decoder's rounds as a resynchronising scanner over bytes. -/
def packetScanner : Scanner UInt8 where
  classify := packetVerdict
  skip_bound := packetVerdict_skip_bound
  frame_bound verdict := by
    obtain ⟨header, h, _, rfl, within⟩ := packetVerdict_frame_iff.mp verdict
    exact ⟨by simp only [headerLength]; omega, within⟩
  stable more := packetVerdict_append more

@[simp] theorem packetScanner_classify (bs : List UInt8) : packetScanner.classify bs = packetVerdict bs := rfl

@[simp] theorem packetVerdict_nil : packetVerdict [] = .wait := rfl

@[simp] theorem frames_nil : packetScanner.frames [] = [] :=
  Scanner.frames_wait (S := packetScanner) packetVerdict_nil

@[simp] theorem residue_nil : packetScanner.residue [] = [] :=
  Scanner.residue_wait (S := packetScanner) packetVerdict_nil

theorem packetVerdict_no_flag {bs : List UInt8} (cons : bs ≠ []) (noFlag : bs.head? ≠ some packetBeginFlag) :
    packetVerdict bs = .skip 1 := by
  rw [packetVerdict, if_neg noFlag, if_neg cons]

theorem seek_takeWhile (bs : List UInt8) :
    packetScanner.seek bs = (bs.takeWhile (· != packetBeginFlag)).length +
      packetScanner.seek (bs.drop (bs.takeWhile (· != packetBeginFlag)).length) := by
  induction bs with
  | nil => simp
  | cons b bs ih =>
    by_cases flag : b = packetBeginFlag
    · simp [flag]
    · have verdict : packetScanner.classify (b :: bs) = .skip 1 :=
        packetVerdict_no_flag (List.cons_ne_nil _ _) (by simpa using flag)
      rw [List.takeWhile_cons_of_pos (by simpa using flag), Scanner.seek_skip verdict, List.length_cons,
        List.drop_succ_cons, List.drop_succ_cons, List.drop_zero, ih]
      omega

/-- The inner loop is a series of one-byte skips. -/
theorem seek_skipToFlag (buf : List UInt8) (consumeLen : Nat) :
    consumeLen + packetScanner.seek (buf.drop consumeLen) =
      skipToFlag buf consumeLen + packetScanner.seek (buf.drop (skipToFlag buf consumeLen)) := by
  rw [seek_takeWhile, List.drop_drop, skipToFlag, Nat.add_assoc]

theorem head_skipToFlag (buf : List UInt8) (consumeLen : Nat) :
    buf.drop (skipToFlag buf consumeLen) = [] ∨
      (buf.drop (skipToFlag buf consumeLen)).head? = some packetBeginFlag := by
  have landed : buf.drop (skipToFlag buf consumeLen) =
      (buf.drop consumeLen).dropWhile (· != packetBeginFlag) := by
    rw [skipToFlag, ← List.drop_drop]
    nth_rewrite 2 [← List.takeWhile_append_dropWhile (p := (· != packetBeginFlag)) (l := buf.drop consumeLen)]
    exact List.drop_left
  have stop := List.head?_dropWhile_not (· != packetBeginFlag) (buf.drop consumeLen)
  rw [landed]
  cases rest : (buf.drop consumeLen).dropWhile (· != packetBeginFlag) with
  | nil => exact Or.inl rfl
  | cons b tail =>
    rw [rest] at stop
    exact Or.inr (by simpa using stop)

/-- What the decoding loop returns once the scan has settled: nothing where the
scan waits, the packet where it has cut a frame. -/
def decodeSettled (seqGenerator : UInt32) (buf : List UInt8) (start : Nat) : Option DecodeResult :=
  match packetVerdict (buf.drop start) with
  | .frame size =>
    if whole : headerLength ≤ (buf.drop start).length then
      (readPacket seqGenerator (buf.drop start) whole).map fun (pack, seqGenerator) =>
        ⟨some pack, start + size, seqGenerator⟩
    else none
  | _ => some ⟨none, start, seqGenerator⟩

theorem decodeSettled_of_wait {seqGenerator : UInt32} {buf : List UInt8} {start : Nat}
    (waiting : packetVerdict (buf.drop start) = .wait) :
    decodeSettled seqGenerator buf (start + packetScanner.seek (buf.drop start)) =
      some ⟨none, start, seqGenerator⟩ := by
  have still : packetScanner.seek (buf.drop start) = 0 :=
    Scanner.seek_settled fun n => by simp [packetScanner, waiting]
  rw [still, Nat.add_zero, decodeSettled, waiting]

/-- The ways out of one round of the decoding loop, in its order. -/
theorem round_cases {bs : List UInt8} (landed : bs = [] ∨ bs.head? = some packetBeginFlag) :
    bs.length < headerLength ∧ packetVerdict bs = .wait ∨
      ∃ whole : headerLength ≤ bs.length,
        calcCrc8 (bs.take (headerLength - 1)) ≠ (PacketHeader.ofBytes bs whole).crc ∧ packetVerdict bs = .skip 1 ∨
          calcCrc8 (bs.take (headerLength - 1)) = (PacketHeader.ofBytes bs whole).crc ∧
            packetVerdict bs =
              if maxBodyLength < (PacketHeader.ofBytes bs whole).bodyLen.toNat then .skip headerLength
              else if bs.length < headerLength + (PacketHeader.ofBytes bs whole).bodyLen.toNat then .wait
              else .frame (headerLength + (PacketHeader.ofBytes bs whole).bodyLen.toNat) := by
  by_cases short : bs.length < headerLength
  · refine Or.inl ⟨short, ?_⟩
    rcases landed with rfl | flag
    · rfl
    · rw [packetVerdict, if_pos flag, dif_neg (not_le.mpr short)]
  · have whole := not_lt.mp short
    have flag := landed.resolve_left fun nil => absurd (nil ▸ whole) (by decide)
    refine Or.inr ⟨whole, ?_⟩
    by_cases crc : calcCrc8 (bs.take (headerLength - 1)) = (PacketHeader.ofBytes bs whole).crc
    · exact Or.inr ⟨crc, packetVerdict_header ⟨whole, rfl, flag, crc⟩⟩
    · exact Or.inl ⟨crc, by simp only [packetVerdict, flag, if_true, whole, dite_true, if_pos (ne_eq _ _ ▸ crc)]⟩

/-- One round: the decoding loop follows the scan until it settles, and then
returns what was found there. -/
theorem decodeLoop_eq (seqGenerator : UInt32) (buf : List UInt8) (consumeLen : Nat) :
    decodeLoop seqGenerator buf consumeLen =
      decodeSettled seqGenerator buf (consumeLen + packetScanner.seek (buf.drop consumeLen)) := by
  induction left : buf.length - consumeLen using Nat.strongRecOn generalizing consumeLen with
  | _ left ih =>
    have head := head_skipToFlag buf consumeLen
    have forward : consumeLen ≤ skipToFlag buf consumeLen := Nat.le_add_right _ _
    rw [seek_skipToFlag, decodeLoop]
    obtain ⟨start, startEq⟩ : ∃ start, skipToFlag buf consumeLen = start := ⟨_, rfl⟩
    simp only [startEq] at head forward ⊢
    -- A skip moves to a later start, from where the induction hypothesis runs.
    have again {n : Nat} (verdict : packetVerdict (buf.drop start) = .skip n) :
        decodeLoop seqGenerator buf (start + n) =
          decodeSettled seqGenerator buf (start + packetScanner.seek (buf.drop start)) := by
      have bound := packetVerdict_skip_bound verdict
      rw [List.length_drop] at bound
      rw [ih _ (by omega) _ rfl, Scanner.seek_skip (S := packetScanner) verdict, List.drop_drop, Nat.add_assoc]
    rcases round_cases head with ⟨short, waiting⟩ | ⟨whole, ⟨mismatch, verdict⟩ | ⟨crc, verdict⟩⟩
    · rw [dif_pos short]
      exact (decodeSettled_of_wait waiting).symm
    · rw [dif_neg (not_lt.mpr whole), if_pos mismatch]
      exact again verdict
    · rw [dif_neg (not_lt.mpr whole), if_neg (not_not.mpr crc)]
      split
      · rename_i oversize
        exact again (verdict.trans (if_pos oversize))
      · rename_i small
        rw [if_neg small] at verdict
        split
        · rename_i incomplete
          exact (decodeSettled_of_wait (verdict.trans (if_pos incomplete))).symm
        · rename_i complete
          rw [if_neg complete] at verdict
          have still : packetScanner.seek (buf.drop start) = 0 :=
            Scanner.seek_settled fun n => by simp [packetScanner, verdict]
          rw [still, Nat.add_zero, decodeSettled, verdict]
          simp only [whole, dite_true]

theorem decodePacket_eq (seqGenerator : UInt32) (buf : List UInt8) :
    decodePacket seqGenerator buf = decodeSettled seqGenerator buf (packetScanner.seek buf) := by
  rw [decodePacket, decodeLoop_eq, Nat.zero_add, List.drop_zero]

/-- The scan waits behind the bytes it has consumed: nothing is found. -/
theorem decodePacket_of_wait {seqGenerator : UInt32} {buf : List UInt8}
    (waiting : packetVerdict (buf.drop (packetScanner.seek buf)) = .wait) :
    decodePacket seqGenerator buf = some ⟨none, packetScanner.seek buf, seqGenerator⟩ := by
  rw [decodePacket_eq, decodeSettled, waiting]

/-- The scan has cut a frame: the packet read at its start is returned. -/
theorem decodePacket_of_frame (seqGenerator : UInt32) {buf : List UInt8} {size : Nat}
    (verdict : packetVerdict (buf.drop (packetScanner.seek buf)) = .frame size) :
    ∃ whole, decodePacket seqGenerator buf =
      (readPacket seqGenerator (buf.drop (packetScanner.seek buf)) whole).map fun (pack, seqGenerator) =>
        ⟨some pack, packetScanner.seek buf + size, seqGenerator⟩ := by
  obtain ⟨header, h, -⟩ := packetVerdict_frame_iff.mp verdict
  refine ⟨h.whole, ?_⟩
  rw [decodePacket_eq, decodeSettled, verdict]
  exact dif_pos h.whole

theorem packetVerdict_seek (buf : List UInt8) :
    packetVerdict (buf.drop (packetScanner.seek buf)) = .wait ∨
      ∃ size, packetVerdict (buf.drop (packetScanner.seek buf)) = .frame size := by
  cases verdict : packetVerdict (buf.drop (packetScanner.seek buf)) with
  | skip n => exact absurd verdict (Scanner.classify_seek (S := packetScanner) buf n)
  | wait => exact Or.inl rfl
  | frame size => exact Or.inr ⟨size, rfl⟩

/-- A decoded packet has consumed at least its header, and never more than there is. -/
theorem decodePacket_consumeLen {seqGenerator gen' : UInt32} {buf : List UInt8} {pack : Packet} {consumeLen : Nat}
    (decoded : decodePacket seqGenerator buf = some ⟨some pack, consumeLen, gen'⟩) :
    headerLength ≤ consumeLen ∧ consumeLen ≤ buf.length := by
  rcases packetVerdict_seek buf with waiting | ⟨size, verdict⟩
  · simp [decodePacket_of_wait waiting] at decoded
  · obtain ⟨whole, found⟩ := decodePacket_of_frame seqGenerator verdict
    rw [decoded] at found
    obtain ⟨read, _, same⟩ := Option.map_eq_some_iff.mp found.symm
    obtain ⟨header, _, _, rfl, within⟩ := packetVerdict_frame_iff.mp verdict
    have start := Scanner.seek_le (S := packetScanner) buf
    have length : _ = consumeLen := congrArg DecodeResult.consumeLen same
    rw [List.length_drop] at within
    simp only at length
    omega

/-- A decoded packet is built from a header that the scan has accepted and from
the bytes behind it. -/
theorem decodePacket_packet {seqGenerator gen' : UInt32} {buf : List UInt8} {pack : Packet} {consumeLen : Nat}
    (decoded : decodePacket seqGenerator buf = some ⟨some pack, consumeLen, gen'⟩) :
    ∃ header body, HeaderAt (buf.drop (packetScanner.seek buf)) header ∧
      body.bytes.length = header.bodyLen.toNat ∧ header.bodyLen.toNat ≤ maxBodyLength ∧
      PacketHeader.deviceIdOffset + header.deviceIdLen.toNat ≤ (buf.drop (packetScanner.seek buf)).length ∧
      Packet.construct seqGenerator header.cmd (header.rsp != 0) body (slice (buf.drop (packetScanner.seek buf))
        PacketHeader.deviceIdOffset header.deviceIdLen.toNat) header.seq header.ec = (pack, gen') := by
  rcases packetVerdict_seek buf with waiting | ⟨size, verdict⟩
  · simp [decodePacket_of_wait waiting] at decoded
  · obtain ⟨whole, found⟩ := decodePacket_of_frame seqGenerator verdict
    rw [decoded] at found
    obtain ⟨⟨_, _⟩, read, same⟩ := Option.map_eq_some_iff.mp found.symm
    obtain ⟨header, h, small, rfl, within⟩ := packetVerdict_frame_iff.mp verdict
    cases same
    simp only [readPacket, ← h.same] at read
    split at read
    · cases read
    · rename_i inside
      refine ⟨header, _, h, ?_, small, not_lt.mp inside, Option.some.inj read⟩
      simp only [Ibuffer.copy, List.length_take, List.length_drop] at within ⊢
      omega

/-- What a wait leaves unread is shorter than one largest frame. -/
theorem length_lt_of_wait {bs : List UInt8} (waiting : packetVerdict bs = .wait) :
    bs.length < headerLength + maxBodyLength := by
  by_cases found : ∃ header, HeaderAt bs header
  · obtain ⟨header, h⟩ := found
    rw [packetVerdict_header h] at waiting
    split at waiting
    · cases waiting
    · split at waiting
      · omega
      · cases waiting
  · rcases packetVerdict_no_header (not_exists.mp found) with ⟨other, _⟩ | ⟨_, nil | ⟨_, short⟩⟩
    · simp [other] at waiting
    · simp [nil, headerLength]
    · omega

end Asyncmsg
