import Asyncmsg.RoundTrip
import Asyncmsg.Library.LinearFold

namespace Asyncmsg
open Scanning LinearFold

/-- The entry of the table for one byte. -/
def crc8Entry (v : UInt8) : UInt8 := crc8Table.getD v.toNat 0

/-- One bit of the checksum's polynomial division, from the low end. -/
def crc8Shift (v : UInt8) : UInt8 := (v >>> 1) ^^^ (if v.toNat.testBit 0 then 0x8c else 0)

/-- The bits of a byte, the least significant first. -/
def bits (v : UInt8) : List Bool := (List.range 8).map v.toNat.testBit

/-- The bits of some bytes in their order. -/
def flips (e : List UInt8) : List Bool := e.flatMap bits

def parity (flags : List Bool) : Bool := flags.foldl xor false

theorem forall_byte {p : UInt8 → Prop} (all : ∀ n < 256, p (UInt8.ofNat n)) (v : UInt8) : p v := by
  have this := all v.toNat v.toNat_lt
  rwa [UInt8.ofNat_toNat] at this

theorem calcCrc8_eq (data : List UInt8) : calcCrc8 data = fold (· ^^^ ·) crc8Entry 0x77 data := rfl

namespace crc8Table

/-- Every entry of the hand-typed table is eight steps of the division. -/
theorem entry_eq (v : UInt8) : crc8Entry v = crc8Shift^[8] v :=
  forall_byte (p := fun v => crc8Entry v = crc8Shift^[8] v) (by decide +kernel) v

theorem shift_xor (a b : UInt8) : crc8Shift (a ^^^ b) = crc8Shift a ^^^ crc8Shift b := by
  have cancel (x y c : UInt8) : (x ^^^ c) ^^^ (y ^^^ c) = x ^^^ y := by
    rw [show (x ^^^ c) ^^^ (y ^^^ c) = (x ^^^ y) ^^^ (c ^^^ c) by ac_rfl, UInt8.xor_self, UInt8.xor_zero]
  simp only [crc8Shift, UInt8.toNat_xor, Nat.testBit_xor, UInt8.shiftRight_xor]
  cases a.toNat.testBit 0 <;> cases b.toNat.testBit 0
  · simp
  · simp [UInt8.xor_assoc]
  · simp
    ac_rfl
  · simp [cancel]

theorem entry_xor (a b : UInt8) : crc8Entry (a ^^^ b) = crc8Entry a ^^^ crc8Entry b := by
  simp only [entry_eq]
  exact @Function.Semiconj₂.iterate _ crc8Shift (fun x y => x ^^^ y) shift_xor 8 a b

theorem entry_eq_zero (v : UInt8) : crc8Entry v = 0 ↔ v = 0 :=
  forall_byte (p := fun v => crc8Entry v = 0 ↔ v = 0) (by decide +kernel) v

/-- No entry changes the parity of its index. -/
theorem parity_entry (v : UInt8) : parity (bits (crc8Entry v)) = parity (bits v) :=
  forall_byte (p := fun v => parity (bits (crc8Entry v)) = parity (bits v)) (by decide +kernel) v

/-- A byte that is clear below some bit has an entry that is not clear from
there on. -/
theorem entry_straddles {k : Nat} (small : k < 8) {v : UInt8} (low : v.toNat % 2 ^ k = 0)
    (high : (crc8Entry v).toNat < 2 ^ k) : v = 0 := by
  have all : ∀ k < 8, ∀ n < 256, (UInt8.ofNat n).toNat % 2 ^ k = 0 →
      (crc8Entry (UInt8.ofNat n)).toNat < 2 ^ k → UInt8.ofNat n = 0 := by decide +kernel
  exact forall_byte (p := fun v => v.toNat % 2 ^ k = 0 → (crc8Entry v).toNat < 2 ^ k → v = 0)
    (all k small) v low high

end crc8Table

theorem byte_eq_zero {v : UInt8} (clear : ∀ k < 8, v.toNat.testBit k = false) : v = 0 := by
  refine forall_byte (p := fun v => (∀ k < 8, v.toNat.testBit k = false) → v = 0) ?_ v clear
  decide +kernel

theorem foldl_xor (flags : List Bool) (b : Bool) : flags.foldl xor b = (b ^^ parity flags) := by
  rw [parity, ← @List.foldl_assoc Bool xor, Bool.xor_false]

theorem parity_cons (b : Bool) (flags : List Bool) : parity (b :: flags) = (b ^^ parity flags) := by
  rw [parity, List.foldl_cons, foldl_xor, Bool.false_xor]

theorem parity_eq (flags : List Bool) : parity flags = decide (flags.count true % 2 = 1) := by
  induction flags with
  | nil => rfl
  | cons b flags ih =>
    rw [parity_cons, ih, List.count_cons]
    cases b
    · simp
    · rcases Nat.mod_two_eq_zero_or_one (flags.count true) with even | odd
      · simp [even, Nat.add_mod]
      · simp [odd, Nat.add_mod]

theorem parity_map_xor (f g : Nat → Bool) (places : List Nat) :
    parity (places.map fun i => f i ^^ g i) = (parity (places.map f) ^^ parity (places.map g)) := by
  induction places with
  | nil => rfl
  | cons i places ih =>
    rw [List.map_cons, List.map_cons, List.map_cons, parity_cons, parity_cons, parity_cons, ih, Bool.xor_assoc,
      Bool.xor_left_comm (g i), ← Bool.xor_assoc]

theorem parity_bits_xor (a b : UInt8) :
    parity (bits (a ^^^ b)) = (parity (bits a) ^^ parity (bits b)) := by
  have places : (a ^^^ b).toNat.testBit = fun i => a.toNat.testBit i ^^ b.toNat.testBit i := by
    funext i
    rw [UInt8.toNat_xor, Nat.testBit_xor]
  rw [bits, places, parity_map_xor, bits, bits]

/-- The checksum from zero keeps the parity of all bits. -/
theorem parity_fold (e : List UInt8) :
    parity (bits (fold (· ^^^ ·) crc8Entry 0 e)) = parity (flips e) := by
  rw [map_fold (f := fun v => parity (bits v)) parity_bits_xor crc8Table.parity_entry]
  change _ = (e.flatMap bits).foldl xor false
  rw [List.foldl_flatMap]
  simp only [foldl_xor]
  rfl

theorem flips_getElem? (e : List UInt8) (i : Nat) {k : Nat} (small : k < 8) :
    (flips e)[8 * i + k]? = e[i]?.map fun v => v.toNat.testBit k := by
  induction e generalizing i with
  | nil => rfl
  | cons v e ih =>
    have length : (bits v).length = 8 := by simp [bits]
    rw [flips, List.flatMap_cons]
    cases i with
    | zero =>
      rw [List.getElem?_append_left (by omega)]
      simp [bits, List.getElem?_range small]
    | succ i =>
      rw [List.getElem?_append_right (by omega), length, show 8 * (i + 1) + k - 8 = 8 * i + k by omega]
      exact ih i

/-- The checksum over a whole header with its own checksum is zero. -/
theorem HeaderAt.calcCrc8 {bs : List UInt8} {header : PacketHeader} (h : HeaderAt bs header) :
    calcCrc8 (bs.take headerLength) = 0 := by
  have whole := h.whole
  have crc : header.crc = bs.getD (headerLength - 1) 0 := by
    rw [h.same]
    rfl
  have split : bs.take headerLength = bs.take (headerLength - 1) ++ [header.crc] := by
    simp only [headerLength] at whole crc ⊢
    rw [crc, List.getD_eq_getElem?_getD, List.getElem?_eq_getElem (by omega), Option.getD_some,
      ← List.take_succ_eq_append_getElem]
  rw [split, calcCrc8_eq, fold_append, ← calcCrc8_eq, h.crc, fold_cons, fold_nil, UInt8.xor_self]
  rfl

/-- The bits that a corruption flips: an odd number of them, or only such that
lie within eight consecutive places. -/
structure Detectable (e : List UInt8) : Prop where
  flipped : true ∈ flips e
  pattern : Odd ((flips e).count true) ∨ ∃ p, ∀ i, (flips e)[i]? = some true → p ≤ i ∧ i < p + 8

def corrupt (h e : List UInt8) : List UInt8 := List.zipWith (· ^^^ ·) h e

theorem calcCrc8_corrupt {h e : List UInt8} (same : h.length = e.length) :
    calcCrc8 (corrupt h e) = calcCrc8 h ^^^ fold (· ^^^ ·) crc8Entry 0 e :=
  fold_zipWith crc8Table.entry_xor same 0x77 0

theorem Detectable.of_odd {e : List UInt8} (odd : Odd ((flips e).count true)) :
    fold (· ^^^ ·) crc8Entry 0 e ≠ 0 := by
  intro undetected
  have even := parity_fold e
  rw [undetected, parity_eq (flips e), decide_eq_true (Nat.odd_iff.mp odd)] at even
  exact absurd even (by decide)

section Burst
variable {e : List UInt8} {p : Nat}

theorem flips_pad {i : Nat} (set : (flips (e ++ [0]))[i]? = some true) : (flips e)[i]? = some true := by
  rw [flips, List.flatMap_append, List.getElem?_append] at set
  split at set
  · exact set
  · have clear : ∀ b ∈ List.flatMap bits [0], b = false := by decide
    cases clear true (List.mem_of_getElem? set)

theorem burst_place (burst : ∀ i, (flips e)[i]? = some true → p ≤ i ∧ i < p + 8) {i k : Nat}
    (inside : i < e.length) (small : k < 8) (set : e[i].toNat.testBit k = true) :
    p ≤ 8 * i + k ∧ 8 * i + k < p + 8 := by
  refine burst _ ?_
  rw [flips_getElem? e i small, List.getElem?_eq_getElem inside, Option.map_some, set]

theorem exists_flipped (flipped : true ∈ flips e) :
    ∃ (i k : Nat) (inside : i < e.length), k < 8 ∧ e[i].toNat.testBit k = true := by
  obtain ⟨n, set⟩ := List.mem_iff_getElem?.mp flipped
  rw [← Nat.div_add_mod n 8, flips_getElem? e (n / 8) (Nat.mod_lt n (by decide))] at set
  obtain ⟨v, atByte, set⟩ := Option.map_eq_some_iff.mp set
  obtain ⟨inside, rfl⟩ := List.getElem?_eq_some_iff.mp atByte
  exact ⟨n / 8, n % 8, inside, Nat.mod_lt n (by decide), set⟩

theorem burst_clear (burst : ∀ i, (flips e)[i]? = some true → p ≤ i ∧ i < p + 8) {i : Nat}
    (inside : i < e.length) (apart : i < p / 8 ∨ p / 8 + 1 < i) : e[i] = 0 := by
  refine byte_eq_zero fun k small => Bool.eq_false_iff.mpr fun set => ?_
  have place := burst_place burst inside small set
  omega

/-- A burst meets two neighbouring bytes at most, in the high bits of the first
and the low bits of the second. -/
theorem exists_of_burst (flipped : true ∈ flips e)
    (burst : ∀ i, (flips e)[i]? = some true → p ≤ i ∧ i < p + 8) :
    ∃ front a b back k, e ++ [0] = front ++ a :: b :: back ∧ (∀ x ∈ front, x = 0) ∧ (∀ x ∈ back, x = 0) ∧
      k < 8 ∧ a.toNat % 2 ^ k = 0 ∧ b.toNat < 2 ^ k ∧ (a ≠ 0 ∨ b ≠ 0) := by
  have padded : ∀ i, (flips (e ++ [0]))[i]? = some true → p ≤ i ∧ i < p + 8 := fun i set =>
    burst i (flips_pad set)
  obtain ⟨i, k, inside, small, set⟩ := exists_flipped flipped
  have place := burst_place burst inside small set
  have length : (e ++ [0]).length = e.length + 1 := List.length_append
  have first : p / 8 < (e ++ [0]).length := by omega
  have second : p / 8 + 1 < (e ++ [0]).length := by omega
  refine ⟨(e ++ [0]).take (p / 8), (e ++ [0])[p / 8], (e ++ [0])[p / 8 + 1], (e ++ [0]).drop (p / 8 + 2), p % 8,
    ?_, ?_, ?_, Nat.mod_lt p (by decide), ?_, ?_, ?_⟩
  · rw [← List.drop_eq_getElem_cons second, ← List.drop_eq_getElem_cons first, List.take_append_drop]
  · intro x member
    obtain ⟨j, before, rfl⟩ := List.mem_iff_getElem.mp member
    rw [List.length_take] at before
    rw [List.getElem_take]
    exact burst_clear padded (by omega) (Or.inl (by omega))
  · intro x member
    obtain ⟨j, before, rfl⟩ := List.mem_iff_getElem.mp member
    rw [List.length_drop] at before
    rw [List.getElem_drop]
    exact burst_clear padded (by omega) (Or.inr (by omega))
  · refine Nat.eq_of_testBit_eq fun j => ?_
    rw [Nat.testBit_mod_two_pow, Nat.zero_testBit, Bool.and_eq_false_iff, decide_eq_false_iff_not]
    by_contra both
    simp only [not_or, not_not, Bool.not_eq_false] at both
    have place := burst_place padded first (by omega) both.2
    omega
  · refine Nat.lt_pow_two_of_testBit _ fun j above => Bool.eq_false_iff.mpr fun bit => ?_
    by_cases low : j < 8
    · have place := burst_place padded second low bit
      omega
    · have bound := (e ++ [0])[p / 8 + 1].toNat_lt
      have wide : 2 ^ 8 ≤ 2 ^ j := Nat.pow_le_pow_right (by decide) (not_lt.mp low)
      rw [Nat.testBit_lt_two_pow (by omega)] at bit
      cases bit
  · have apart : ∀ j (within : j < (e ++ [0]).length), j = i → (e ++ [0])[j] ≠ 0 := by
      rintro j within rfl zero
      rw [List.getElem_append_left inside] at zero
      rw [zero] at set
      simp at set
    rcases (by omega : p / 8 = i ∨ p / 8 + 1 = i) with here | here
    · exact Or.inl (apart _ first here)
    · exact Or.inr (apart _ second here)

end Burst

theorem Detectable.of_burst {e : List UInt8} {p : Nat} (flipped : true ∈ flips e)
    (burst : ∀ i, (flips e)[i]? = some true → p ≤ i ∧ i < p + 8) : fold (· ^^^ ·) crc8Entry 0 e ≠ 0 := by
  intro undetected
  obtain ⟨front, a, b, back, k, split, front_zeros, back_zeros, small, high, low, nonzero⟩ :=
    exists_of_burst flipped burst
  have padded : fold (· ^^^ ·) crc8Entry 0 (e ++ [0]) = 0 := by
    rw [fold_append, undetected]
    rfl
  rw [split, fold_pair crc8Table.entry_eq_zero front_zeros back_zeros, UInt8.xor_eq_zero_iff] at padded
  have first := crc8Table.entry_straddles small high (padded ▸ low)
  rw [first] at padded
  exact nonzero.elim (absurd first) fun second => second padded.symm

theorem Detectable.fold_ne_zero {e : List UInt8} (detectable : Detectable e) :
    fold (· ^^^ ·) crc8Entry 0 e ≠ 0 := by
  obtain ⟨flipped, odd | ⟨p, burst⟩⟩ := detectable
  · exact Detectable.of_odd odd
  · exact Detectable.of_burst flipped burst

/-- A returned packet has its header one frame in front of what is consumed. -/
theorem decodePacket_headerAt {seqGenerator gen' : UInt32} {buf : List UInt8} {pack : Packet} {consumeLen : Nat}
    (decoded : decodePacket seqGenerator buf = some ⟨some pack, consumeLen, gen'⟩) :
    ∃ o header, HeaderAt (buf.drop o) header ∧ consumeLen = o + headerLength + pack.body.bytes.length := by
  obtain ⟨header, body, found, length, _, _, constructed⟩ := decodePacket_packet decoded
  have same := (Packet.construct_deviceId_body seqGenerator header.cmd (header.rsp != 0) body (slice
    (buf.drop (packetScanner.seek buf)) PacketHeader.deviceIdOffset header.deviceIdLen.toNat) header.seq
    header.ec).2
  rw [constructed] at same
  refine ⟨packetScanner.seek buf, header, found, ?_⟩
  rcases packetVerdict_seek buf with waiting | ⟨size, verdict⟩
  · simp [decodePacket_of_wait waiting] at decoded
  · obtain ⟨_, cut⟩ := decodePacket_of_frame seqGenerator verdict
    rw [decoded] at cut
    obtain ⟨read, _, result⟩ := Option.map_eq_some_iff.mp cut.symm
    have consumed : _ = consumeLen := congrArg DecodeResult.consumeLen result
    obtain ⟨other, h, _, rfl, _⟩ := packetVerdict_frame_iff.mp verdict
    rw [← consumed, same, length, ← found.unique h, Nat.add_assoc]

/-- Header corruption is detected: no header stands where an odd number of bits
or a short burst of a header has been flipped, and the decoder accepts no frame
there. -/
theorem corrupted_header_rejected {h e : List UInt8} {header : PacketHeader} (length : h.length = headerLength)
    (same : e.length = headerLength) (accepted : HeaderAt h header) (detectable : Detectable e) :
    (∀ rest other, ¬HeaderAt (corrupt h e ++ rest) other) ∧
      ∀ front rest seqGenerator gen' pack consumeLen,
        decodePacket seqGenerator (front ++ (corrupt h e ++ rest)) = some ⟨some pack, consumeLen, gen'⟩ →
          consumeLen ≠ front.length + headerLength + pack.body.bytes.length := by
  have rejected : ∀ rest other, ¬HeaderAt (corrupt h e ++ rest) other := by
    intro rest other found
    have size : (corrupt h e).length = headerLength := by
      rw [corrupt, List.length_zipWith, length, same, min_self]
    have before := accepted.calcCrc8
    have after := found.calcCrc8
    rw [List.take_of_length_le length.le] at before
    rw [List.take_left' size, calcCrc8_corrupt (length.trans same.symm), before, UInt8.zero_xor] at after
    exact detectable.fold_ne_zero after
  refine ⟨rejected, fun front rest seqGenerator gen' pack consumeLen decoded at_front => ?_⟩
  obtain ⟨o, other, found, consumed⟩ := decodePacket_headerAt decoded
  cases show o = front.length by omega
  rw [List.drop_left] at found
  exact rejected rest other found

/-- A burst over the end of one byte and the start of the next. -/
theorem corrupted_header_rejected_pong :
    ¬∃ other, HeaderAt (corrupt (pong.frame (by decide))
      (List.replicate 40 0 ++ [0x80, 0x41] ++ List.replicate 45 0) ++ [0x55]) other := by
  have header := pong.headerAt_frame (by decide) []
  rw [List.append_nil] at header
  refine not_exists.mpr ((corrupted_header_rejected (by decide) (by decide) header
    ⟨by decide, Or.inr ⟨327, fun i set => ?_⟩⟩).1 [0x55])
  have places : ∀ x ∈ (flips (List.replicate 40 0 ++ [0x80, 0x41] ++ List.replicate 45 0)).zipIdx, x.1 = true →
      327 ≤ x.2 ∧ x.2 < 335 := by decide +kernel
  exact places (true, i) (List.mem_zipIdx_iff_getElem?.mpr set) rfl

end Asyncmsg
