import Asyncmsg.ScanExact

namespace Asyncmsg
open Scanning

/-- What a byte is read for. -/
inductive ReadField
  | flag
  | header
  | deviceId
  | body
  deriving DecidableEq

/-- A byte that the decoder reads, by its place in the buffer. -/
structure ByteRead where
  field : ReadField
  index : Nat
  deriving DecidableEq

def byteReads (field : ReadField) (start size : Nat) : List ByteRead :=
  (List.range' start size).map fun index => ⟨field, index⟩

theorem mem_byteReads {field : ReadField} {start size : Nat} {read : ByteRead} :
    read ∈ byteReads field start size ↔ read.field = field ∧ start ≤ read.index ∧ read.index < start + size := by
  simp only [byteReads, List.mem_map, List.mem_range'_1]
  constructor
  · rintro ⟨index, bound, rfl⟩
    exact ⟨rfl, bound⟩
  · rintro ⟨rfl, bound⟩
    exact ⟨read.index, bound, rfl⟩

/-- The copies made of an accepted frame that starts at `start`. -/
def frameReads (header : PacketHeader) (start : Nat) : List ByteRead :=
  byteReads .deviceId (start + PacketHeader.deviceIdOffset) header.deviceIdLen.toNat ++
    byteReads .body (start + headerLength) header.bodyLen.toNat

/-- The bytes that the decoding loop reads, in its order. -/
def decodeLoopReads (buf : List UInt8) (consumeLen : Nat) : List ByteRead :=
  let start := skipToFlag buf consumeLen
  let bufValid := buf.drop start
  let scanned := byteReads .flag consumeLen (min (start + 1) buf.length - consumeLen)
  if short : bufValid.length < headerLength then scanned
  else
    let header := PacketHeader.ofBytes bufValid (not_lt.mp short)
    let bodyLen := header.bodyLen.toNat
    scanned ++ byteReads .header start headerLength ++
      if calcCrc8 (bufValid.take (headerLength - 1)) ≠ header.crc then decodeLoopReads buf (start + 1)
      else if maxBodyLength < bodyLen then decodeLoopReads buf (start + headerLength)
      else if bufValid.length < headerLength + bodyLen then []
      else frameReads header start
termination_by buf.length - consumeLen
decreasing_by
  all_goals
    simp only [bufValid, List.length_drop, headerLength] at short
    simp only [start, skipToFlag, headerLength] at short ⊢
    omega

/-- The bytes that `decode_packet` reads. -/
def decodeReads (buf : List UInt8) : List ByteRead := decodeLoopReads buf 0

/-- The copies made where the scan has settled. -/
def settledReads (buf : List UInt8) (start : Nat) : List ByteRead :=
  match packetVerdict (buf.drop start) with
  | .frame _ =>
    if whole : headerLength ≤ (buf.drop start).length then
      frameReads (PacketHeader.ofBytes (buf.drop start) whole) start
    else []
  | _ => []

/-- Nothing is copied, and every byte stands in the buffer. -/
def Scanned (buf : List UInt8) (reads : List ByteRead) : Prop :=
  ∀ read ∈ reads, (read.field = .flag ∨ read.field = .header) ∧ read.index < buf.length

theorem Scanned.append {buf : List UInt8} {reads more : List ByteRead} (scanned : Scanned buf reads)
    (scanned' : Scanned buf more) : Scanned buf (reads ++ more) := by
  intro read member
  rcases List.mem_append.mp member with old | new
  · exact scanned read old
  · exact scanned' read new

theorem scanned_flag (buf : List UInt8) (consumeLen start : Nat) :
    Scanned buf (byteReads .flag consumeLen (min (start + 1) buf.length - consumeLen)) := by
  intro read member
  obtain ⟨field, _, bound⟩ := mem_byteReads.mp member
  exact ⟨Or.inl field, by omega⟩

theorem scanned_header {buf : List UInt8} {start : Nat} (whole : headerLength ≤ (buf.drop start).length) :
    Scanned buf (byteReads .header start headerLength) := by
  intro read member
  obtain ⟨field, _, bound⟩ := mem_byteReads.mp member
  rw [List.length_drop] at whole
  exact ⟨Or.inr field, by omega⟩

theorem settledReads_of_wait {buf : List UInt8} {start : Nat} (waiting : packetVerdict (buf.drop start) = .wait) :
    settledReads buf (start + packetScanner.seek (buf.drop start)) = [] := by
  have still : packetScanner.seek (buf.drop start) = 0 :=
    Scanner.seek_settled fun n => by simp [packetScanner, waiting]
  rw [still, Nat.add_zero, settledReads, waiting]

theorem settledReads_of_frame {buf : List UInt8} {start size : Nat}
    (verdict : packetVerdict (buf.drop start) = .frame size) (whole : headerLength ≤ (buf.drop start).length) :
    settledReads buf (start + packetScanner.seek (buf.drop start)) =
      frameReads (PacketHeader.ofBytes (buf.drop start) whole) start := by
  have still : packetScanner.seek (buf.drop start) = 0 :=
    Scanner.seek_settled fun n => by simp [packetScanner, verdict]
  rw [still, Nat.add_zero, settledReads, verdict]
  exact dif_pos whole

/-- The decoding loop looks at bytes of the buffer until the scan has settled,
and then copies what was found there. -/
theorem decodeLoopReads_eq (buf : List UInt8) (consumeLen : Nat) :
    ∃ scanned, Scanned buf scanned ∧ decodeLoopReads buf consumeLen =
      scanned ++ settledReads buf (consumeLen + packetScanner.seek (buf.drop consumeLen)) := by
  induction left : buf.length - consumeLen using Nat.strongRecOn generalizing consumeLen with
  | _ left ih =>
    have head := head_skipToFlag buf consumeLen
    have forward : consumeLen ≤ skipToFlag buf consumeLen := Nat.le_add_right _ _
    have flags := scanned_flag buf consumeLen (skipToFlag buf consumeLen)
    rw [seek_skipToFlag, decodeLoopReads]
    obtain ⟨start, startEq⟩ : ∃ start, skipToFlag buf consumeLen = start := ⟨_, rfl⟩
    simp only [startEq] at head forward flags ⊢
    -- A skip moves to a later start, from where the induction hypothesis runs.
    have again {n : Nat} (whole : headerLength ≤ (buf.drop start).length)
        (verdict : packetVerdict (buf.drop start) = .skip n) :
        ∃ scanned, Scanned buf scanned ∧
          byteReads .flag consumeLen (min (start + 1) buf.length - consumeLen) ++
              byteReads .header start headerLength ++ decodeLoopReads buf (start + n) =
            scanned ++ settledReads buf (start + packetScanner.seek (buf.drop start)) := by
      have bound := packetVerdict_skip_bound verdict
      rw [List.length_drop] at bound
      obtain ⟨later, scanned, same⟩ := ih _ (by omega) (start + n) rfl
      refine ⟨_, (flags.append (scanned_header whole)).append scanned, ?_⟩
      rw [same, Scanner.seek_skip (S := packetScanner) verdict, List.drop_drop, Nat.add_assoc,
        ← List.append_assoc]
    rcases round_cases head with ⟨short, waiting⟩ | ⟨whole, ⟨mismatch, verdict⟩ | ⟨crc, verdict⟩⟩
    · rw [dif_pos short, settledReads_of_wait waiting]
      exact ⟨_, flags, (List.append_nil _).symm⟩
    · rw [dif_neg (not_lt.mpr whole), if_pos mismatch]
      exact again whole verdict
    · rw [dif_neg (not_lt.mpr whole), if_neg (not_not.mpr crc)]
      split
      · rename_i oversize
        exact again whole (verdict.trans (if_pos oversize))
      · rename_i small
        rw [if_neg small] at verdict
        split
        · rename_i incomplete
          rw [settledReads_of_wait (verdict.trans (if_pos incomplete))]
          exact ⟨_, flags.append (scanned_header whole), rfl⟩
        · rename_i complete
          rw [if_neg complete] at verdict
          rw [settledReads_of_frame verdict whole]
          exact ⟨_, flags.append (scanned_header whole), rfl⟩

theorem StopsAtFrame.decodeReads {buf : List UInt8} {header : PacketHeader} (stops : StopsAtFrame buf header) :
    ∃ scanned, Scanned buf scanned ∧ decodeReads buf = scanned ++ frameReads header (packetScanner.seek buf) := by
  obtain ⟨scanned, looked, same⟩ := decodeLoopReads_eq buf 0
  refine ⟨scanned, looked, ?_⟩
  rw [Asyncmsg.decodeReads, same, Nat.zero_add, List.drop_zero, settledReads, stops.verdict]
  simp only [stops.found.whole, dite_true, ← stops.found.same]

theorem decodeReads_of_wait {buf : List UInt8}
    (waiting : packetVerdict (buf.drop (packetScanner.seek buf)) = .wait) : Scanned buf (decodeReads buf) := by
  obtain ⟨scanned, looked, same⟩ := decodeLoopReads_eq buf 0
  rw [decodeReads, same, Nat.zero_add, List.drop_zero, settledReads, waiting, List.append_nil]
  exact looked

/-- What the copies of an accepted frame are: the declared device id, and the
body, which stands in the buffer. -/
theorem StopsAtFrame.mem_frameReads {buf : List UInt8} {header : PacketHeader} (stops : StopsAtFrame buf header)
    {read : ByteRead} :
    read ∈ frameReads header (packetScanner.seek buf) ↔
      read.field = .deviceId ∧ packetScanner.seek buf + PacketHeader.deviceIdOffset ≤ read.index ∧
          read.index < packetScanner.seek buf + PacketHeader.deviceIdOffset + header.deviceIdLen.toNat ∨
        read.field = .body ∧ packetScanner.seek buf + headerLength ≤ read.index ∧
          read.index < packetScanner.seek buf + headerLength + header.bodyLen.toNat ∧ read.index < buf.length := by
  have whole := stops.whole
  rw [List.length_drop] at whole
  rw [frameReads, List.mem_append, mem_byteReads, mem_byteReads]
  refine or_congr_right (and_congr_right fun _ => and_congr_right fun _ => ?_)
  exact ⟨fun below => ⟨below, by omega⟩, And.left⟩

theorem readPacket_eq_none_iff {seqGenerator : UInt32} {bs : List UInt8} {whole : headerLength ≤ bs.length} :
    readPacket seqGenerator bs whole = none ↔
      bs.length < PacketHeader.deviceIdOffset + (PacketHeader.ofBytes bs whole).deviceIdLen.toNat := by
  unfold readPacket
  dsimp only
  split <;> simp_all

/-- The model of the decoder has no result exactly where the code reads a byte
outside the buffer. -/
theorem decodePacket_eq_none_iff (seqGenerator : UInt32) (buf : List UInt8) :
    decodePacket seqGenerator buf = none ↔ ∃ read ∈ decodeReads buf, buf.length ≤ read.index := by
  rcases waits_or_stopsAtFrame buf with waiting | ⟨header, stops⟩
  · rw [decodePacket_of_wait waiting]
    refine iff_of_false (by simp) ?_
    rintro ⟨read, member, outside⟩
    exact absurd (decodeReads_of_wait waiting read member).2 (not_lt.mpr outside)
  · obtain ⟨scanned, looked, reads⟩ := stops.decodeReads
    obtain ⟨_, found⟩ := decodePacket_of_frame seqGenerator stops.verdict
    have whole := stops.found.whole
    rw [List.length_drop] at whole
    simp only [headerLength] at whole
    rw [found, Option.map_eq_none_iff, readPacket_eq_none_iff, ← stops.found.same, List.length_drop, reads]
    constructor
    · intro outside
      refine ⟨⟨.deviceId, max buf.length (packetScanner.seek buf + PacketHeader.deviceIdOffset)⟩, ?_, le_max_left _ _⟩
      rw [List.mem_append, stops.mem_frameReads]
      exact Or.inr (Or.inl ⟨rfl, le_max_right _ _, by simp only [PacketHeader.deviceIdOffset] at outside ⊢; omega⟩)
    · rintro ⟨read, member, outside⟩
      rcases List.mem_append.mp member with old | copied
      · exact absurd (looked read old).2 (not_lt.mpr outside)
      · rcases stops.mem_frameReads.mp copied with ⟨_, _, below⟩ | ⟨_, _, _, within⟩
        · omega
        · omega

theorem readPacket_copies {seqGenerator gen' : UInt32} {bs : List UInt8} {whole : headerLength ≤ bs.length}
    {pack : Packet} (read : readPacket seqGenerator bs whole = some (pack, gen')) :
    pack.deviceId =
        slice bs PacketHeader.deviceIdOffset (PacketHeader.ofBytes bs whole).deviceIdLen.toNat ∧
      pack.body.bytes = slice bs headerLength (PacketHeader.ofBytes bs whole).bodyLen.toNat := by
  unfold readPacket at read
  dsimp only at read
  split at read
  · cases read
  · obtain ⟨deviceId, body⟩ := Packet.construct_deviceId_body seqGenerator (PacketHeader.ofBytes bs whole).cmd
      ((PacketHeader.ofBytes bs whole).rsp != 0)
      (Ibuffer.copy (PacketHeader.ofBytes bs whole).bodyLen (bs.drop headerLength))
      (slice bs PacketHeader.deviceIdOffset (PacketHeader.ofBytes bs whole).deviceIdLen.toNat)
      (PacketHeader.ofBytes bs whole).seq (PacketHeader.ofBytes bs whole).ec
    rw [Option.some.inj read] at deviceId body
    exact ⟨deviceId, congrArg Ibuffer.bytes body⟩

/-- The bytes read for one purpose, in their order. -/
def bytesReadFor (buf : List UInt8) (field : ReadField) : List UInt8 :=
  ((decodeReads buf).filter (·.field = field)).map fun read => buf.getD read.index 0

theorem filter_byteReads (field other : ReadField) (start size : Nat) :
    (byteReads field start size).filter (·.field = other) = if field = other then byteReads field start size else [] := by
  split
  · rename_i same
    exact List.filter_eq_self.mpr fun read member => by simpa using (mem_byteReads.mp member).1.trans same
  · rename_i apart
    exact List.filter_eq_nil_iff.mpr fun read member => by simpa [(mem_byteReads.mp member).1] using apart

theorem map_byteReads {buf : List UInt8} (field : ReadField) {start size : Nat} (within : start + size ≤ buf.length) :
    ((byteReads field start size).map fun read => buf.getD read.index 0) = slice buf start size := by
  refine List.ext_getElem (by simp [byteReads, slice]; omega) fun i below _ => ?_
  simp only [byteReads, List.length_map, List.length_range'] at below
  simp only [byteReads, slice, List.getElem_map, List.getElem_range', List.getElem_take, List.getElem_drop, Nat.one_mul]
  rw [List.getD_eq_getElem?_getD, List.getElem?_eq_getElem (by omega), Option.getD_some]

/-- A returned packet holds the bytes that have been read for it. -/
theorem decodePacket_copies {seqGenerator gen' : UInt32} {buf : List UInt8} {pack : Packet} {consumeLen : Nat}
    (decoded : decodePacket seqGenerator buf = some ⟨some pack, consumeLen, gen'⟩) :
    pack.deviceId = bytesReadFor buf .deviceId ∧ pack.body.bytes = bytesReadFor buf .body := by
  rcases waits_or_stopsAtFrame buf with waiting | ⟨header, stops⟩
  · simp [decodePacket_of_wait waiting] at decoded
  · obtain ⟨scanned, looked, reads⟩ := stops.decodeReads
    obtain ⟨whole, found⟩ := decodePacket_of_frame seqGenerator stops.verdict
    have before := Scanner.seek_le (S := packetScanner) buf
    have within := stops.whole
    have inside : ¬(buf.drop (packetScanner.seek buf)).length <
        PacketHeader.deviceIdOffset + (PacketHeader.ofBytes (buf.drop (packetScanner.seek buf)) whole).deviceIdLen.toNat := by
      rw [← @readPacket_eq_none_iff seqGenerator]
      intro none
      simp [found, none] at decoded
    rw [decoded] at found
    obtain ⟨⟨_, _⟩, read, same⟩ := Option.map_eq_some_iff.mp found.symm
    cases same
    obtain ⟨deviceId, body⟩ := readPacket_copies read
    rw [← stops.found.same] at deviceId body inside
    rw [List.length_drop] at inside within
    have untouched (field : ReadField) (apart : field ≠ .flag ∧ field ≠ .header) :
        scanned.filter (·.field = field) = [] :=
      List.filter_eq_nil_iff.mpr fun byte member => by
        rcases (looked byte member).1 with is | is <;> simp [is, apart.1.symm, apart.2.symm]
    simp only [bytesReadFor, reads, List.filter_append, frameReads, filter_byteReads, reduceCtorEq, if_true, if_false,
      List.append_nil, List.nil_append, untouched .deviceId (by simp), untouched .body (by simp)]
    rw [map_byteReads _ (by omega), map_byteReads _ (by omega)]
    simp only [slice, List.drop_drop] at deviceId body ⊢
    exact ⟨deviceId, body⟩

/-- Every byte read stands in the buffer, and what is read for the device id
stands in the field of the header that the packet is read from. -/
def BoundedReads (buf : List UInt8) : Prop :=
  ∀ read ∈ decodeReads buf, read.index < buf.length ∧
    (read.field = .deviceId →
      packetScanner.seek buf + PacketHeader.deviceIdOffset ≤ read.index ∧
        read.index < packetScanner.seek buf + PacketHeader.deviceIdOffset + deviceIdSize)

theorem Scanned.bounded {buf : List UInt8} {reads : List ByteRead} (scanned : Scanned buf reads) {read : ByteRead}
    (member : read ∈ reads) : read.index < buf.length ∧ read.field ≠ .deviceId := by
  obtain ⟨field, inside⟩ := scanned read member
  refine ⟨inside, fun copied => ?_⟩
  rcases field with field | field <;> cases field.symm.trans copied

/-- The decoder stays in its buffer, and for the device id in the field of the
header, exactly if the header of the frame it stops at, if any, declares a
device id no longer than that field. -/
theorem boundedReads_iff (buf : List UInt8) :
    BoundedReads buf ↔ ∀ header, StopsAtFrame buf header → header.deviceIdLen.toNat ≤ deviceIdSize := by
  constructor
  · intro bounded header stops
    obtain ⟨_, _, reads⟩ := stops.decodeReads
    by_contra long
    have copied : (⟨.deviceId, packetScanner.seek buf + PacketHeader.deviceIdOffset + deviceIdSize⟩ : ByteRead) ∈
        decodeReads buf := by
      rw [reads, List.mem_append, stops.mem_frameReads]
      exact Or.inr (Or.inl ⟨rfl, Nat.le_add_right _ _, by simp only; omega⟩)
    exact absurd ((bounded _ copied).2 rfl).2 (lt_irrefl _)
  · intro short read member
    rcases waits_or_stopsAtFrame buf with waiting | ⟨header, stops⟩
    · obtain ⟨inside, other⟩ := (decodeReads_of_wait waiting).bounded member
      exact ⟨inside, fun copied => absurd copied other⟩
    · obtain ⟨scanned, looked, reads⟩ := stops.decodeReads
      have idShort := short header stops
      have whole := stops.found.whole
      rw [List.length_drop] at whole
      simp only [headerLength, deviceIdSize, PacketHeader.deviceIdOffset] at whole idShort ⊢
      rw [reads, List.mem_append, stops.mem_frameReads] at member
      simp only [PacketHeader.deviceIdOffset] at member
      rcases member with old | ⟨_, above, below⟩ | ⟨body, _, _, within⟩
      · obtain ⟨inside, other⟩ := looked.bounded old
        exact ⟨inside, fun copied => absurd copied other⟩
      · exact ⟨by omega, fun _ => ⟨above, by omega⟩⟩
      · exact ⟨within, fun copied => by cases body.symm.trans copied⟩

/-- A header that declares a device id of a hundred bytes, and no body. -/
def longIdHeader : PacketHeader := ⟨0x55, 1, 1, 0, 0, 100, List.replicate 64 0x61, 0, 0, by decide⟩

/-- The copy of the device id leaves the buffer. -/
theorem longIdHeader_unbounded : ¬∀ buf, BoundedReads buf := by
  intro claim
  have found : HeaderAt longIdHeader.withCrc.bytes longIdHeader.withCrc := by
    have flag : longIdHeader.flag = packetBeginFlag := rfl
    have alone := PacketHeader.headerAt_withCrc flag []
    rwa [List.append_nil] at alone
  have verdict : packetVerdict longIdHeader.withCrc.bytes = .frame 87 :=
    packetVerdict_frame_iff.mpr ⟨_, found, by decide, rfl, by simp [headerLength]⟩
  have still : packetScanner.seek longIdHeader.withCrc.bytes = 0 :=
    Scanner.seek_settled fun n => by simp [packetScanner, verdict]
  have stops : StopsAtFrame longIdHeader.withCrc.bytes longIdHeader.withCrc := by
    refine ⟨by rwa [still], by unfold PacketHeader.Oversize; decide, ?_⟩
    rw [still, List.drop_zero, PacketHeader.bytes_length]
    exact Nat.le_refl _
  obtain ⟨_, _, reads⟩ := stops.decodeReads
  have copied : (⟨.deviceId, 100⟩ : ByteRead) ∈ decodeReads longIdHeader.withCrc.bytes := by
    rw [reads, List.mem_append, stops.mem_frameReads, still]
    exact Or.inr (Or.inl ⟨rfl, by decide, by decide⟩)
  have inside := (claim _ _ copied).1
  rw [PacketHeader.bytes_length] at inside
  exact absurd inside (by decide)

end Asyncmsg
