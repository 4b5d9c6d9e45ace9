import Asyncmsg.RoundTrip

namespace Asyncmsg
open Scanning

/-- Repeated decoding of one buffer. Every packet stands with the position in
the stream up to which its decoding has consumed. -/
def decodeAll (seqGenerator : UInt32) (offset : Nat) (buf : List UInt8) : Option (List (Nat × Packet)) :=
  match _ : decodePacket seqGenerator buf with
  | none => none
  | some ⟨none, _, _⟩ => some []
  | some ⟨some pack, consumeLen, gen'⟩ =>
    (decodeAll gen' (offset + consumeLen) (buf.drop consumeLen)).map fun later =>
      (offset + consumeLen, pack) :: later
termination_by buf.length
decreasing_by
  have bound := decodePacket_consumeLen ‹_›
  simp only [headerLength] at bound
  rw [List.length_drop]
  omega

/-- The packets sent, each with the position at which its encoding ends. -/
def sentAt (offset : Nat) : List Packet → List (Nat × Packet)
  | [] => []
  | pack :: packs =>
    let stop := offset + (headerLength + pack.body.bytes.length)
    (stop, pack) :: sentAt stop packs

/-- The packets decoded are a subsequence of those sent. -/
def Subsequence (packs : List Packet) : Prop :=
  ∀ seqGenerator stream, encodeStream packs = some stream →
    ∃ found, decodeAll seqGenerator 0 stream = some found ∧ (found.map Prod.snd).Sublist packs

/-- They even stand where they were sent: no byte of a body is taken for a packet. -/
def NotSmuggled (packs : List Packet) : Prop :=
  ∀ seqGenerator stream, encodeStream packs = some stream →
    ∃ found, decodeAll seqGenerator 0 stream = some found ∧ found.Sublist (sentAt 0 packs)

/-- The same packets, but for the contents of their bodies. -/
def SameShape (packs packs' : List Packet) : Prop :=
  List.Forall₂ (fun p q => q = { p with body := q.body } ∧ q.body.bytes.length = p.body.bytes.length) packs packs'

theorem decodeAll_found {seqGenerator gen' : UInt32} {offset consumeLen : Nat} {buf : List UInt8} {pack : Packet}
    (decoded : decodePacket seqGenerator buf = some ⟨some pack, consumeLen, gen'⟩) :
    decodeAll seqGenerator offset buf =
      (decodeAll gen' (offset + consumeLen) (buf.drop consumeLen)).map fun later =>
        (offset + consumeLen, pack) :: later := by
  rw [decodeAll, decoded]

theorem decodeAll_nil (seqGenerator : UInt32) (offset : Nat) : decodeAll seqGenerator offset [] = some [] := by
  have decoded : decodePacket seqGenerator [] = some ⟨none, 0, seqGenerator⟩ := by
    have still : packetScanner.seek [] = 0 := Scanner.seek_settled fun n => by simp
    have waiting : packetVerdict (([] : List UInt8).drop (packetScanner.seek [])) = .wait := by simp [still]
    rw [decodePacket_of_wait waiting, still]
  rw [decodeAll, decoded]

/-- Where all bodies are of permitted size, decoding runs through the packets
sent and on behind them. -/
theorem decodeAll_encodeStream (seqGenerator : UInt32) {packs : List Packet} (sendable : ∀ p ∈ packs, p.Sendable)
    (small : ∀ p ∈ packs, p.body.bytes.length ≤ maxBodyLength) {stream : List UInt8}
    (encoded : encodeStream packs = some stream) (offset : Nat) (rest : List UInt8) :
    decodeAll seqGenerator offset (stream ++ rest) =
      (decodeAll seqGenerator (offset + stream.length) rest).map fun later => sentAt offset packs ++ later := by
  induction packs generalizing stream offset with
  | nil =>
    cases encoded
    simp [sentAt]
  | cons pack packs ih =>
    have first := sendable pack List.mem_cons_self
    obtain ⟨tail, tailEncoded⟩ := encodeStream_exists fun p member => sendable p (List.mem_cons_of_mem _ member)
    rw [encodeStream_cons first tailEncoded] at encoded
    cases encoded
    have head := decodePacket_sendable seqGenerator first (small pack List.mem_cons_self) (tail ++ rest)
    rw [List.append_assoc, decodeAll_found head, List.drop_left,
      ih (fun p member => sendable p (List.mem_cons_of_mem _ member))
        (fun p member => small p (List.mem_cons_of_mem _ member)) tailEncoded, Option.map_map]
    simp only [sentAt, Packet.frame_length, List.length_append, List.cons_append, Function.comp_def, Nat.add_assoc]

/-- A skipped prefix only moves the result. -/
theorem decodePacket_skip {seqGenerator : UInt32} {buf : List UInt8} {n : Nat}
    (verdict : packetVerdict buf = .skip n) :
    decodePacket seqGenerator buf =
      (decodePacket seqGenerator (buf.drop n)).map fun r => { r with consumeLen := n + r.consumeLen } := by
  rw [decodePacket_eq, decodePacket_eq, Scanner.seek_skip (S := packetScanner) verdict]
  unfold decodeSettled
  rw [List.drop_drop]
  split
  · split
    · rw [Option.map_map]
      simp only [Function.comp_def, Nat.add_assoc]
    · rfl
  · rfl

theorem decodeAll_skip {seqGenerator : UInt32} {offset n : Nat} {buf : List UInt8}
    (verdict : packetVerdict buf = .skip n) :
    decodeAll seqGenerator offset buf = decodeAll seqGenerator (offset + n) (buf.drop n) := by
  have moved : decodePacket seqGenerator buf = _ := decodePacket_skip verdict
  cases decoded : decodePacket seqGenerator (buf.drop n) with
  | none =>
    rw [decoded] at moved
    rw [decodeAll, decodeAll, moved, decoded]
    rfl
  | some r =>
    rw [decoded] at moved
    rcases r with ⟨_ | pack, consumeLen, gen'⟩
    · rw [decodeAll, decodeAll, moved, decoded]
      rfl
    · rw [decodeAll_found moved, decodeAll_found decoded, List.drop_drop, Nat.add_assoc]

theorem decodeAll_zeros (seqGenerator : UInt32) (offset k : Nat) (rest : List UInt8) :
    decodeAll seqGenerator offset (List.replicate k 0 ++ rest) = decodeAll seqGenerator (offset + k) rest := by
  induction k generalizing offset with
  | zero => rfl
  | succ k ih =>
    have verdict : packetVerdict (List.replicate (k + 1) 0 ++ rest) = .skip 1 :=
      packetVerdict_no_flag (by simp [List.replicate_succ]) (by simp [List.replicate_succ, packetBeginFlag])
    rw [decodeAll_skip verdict, List.replicate_succ, List.cons_append, List.drop_one, List.tail_cons, ih,
      Nat.add_assoc, Nat.add_comm 1]

/-- The packet that an oversize body can hide. -/
def stowaway : Packet := ⟨1, 1, false, 0, [0x61], .empty⟩

theorem stowaway_sendable : stowaway.Sendable := ⟨by decide, by decide, by decide, by decide⟩

def stowawayFrame : List UInt8 := stowaway.frame stowaway_sendable.short

theorem stowawayFrame_length : stowawayFrame.length = headerLength := Packet.frame_length _ _

theorem decodeAll_stowaway (seqGenerator : UInt32) (offset : Nat) (rest : List UInt8) :
    decodeAll seqGenerator offset (stowawayFrame ++ rest) =
      (decodeAll seqGenerator (offset + headerLength) rest).map fun later =>
        (offset + headerLength, stowaway) :: later := by
  have decoded := decodePacket_sendable seqGenerator stowaway_sendable (by decide) rest
  rw [stowawayFrame, decodeAll_found decoded, List.drop_left, Packet.frame_length]
  rfl

/-- A body of the given size that starts with two stowaways. -/
def smugglingBody (size : Nat) (fits : size < 2 ^ 32) : Ibuffer where
  bytes := (stowawayFrame ++ (stowawayFrame ++ List.replicate (size - 2 * headerLength) 0)).take size
  size_lt := (List.length_take_le _ _).trans_lt fits

theorem smugglingBody_bytes {size : Nat} (fits : size < 2 ^ 32) (large : maxBodyLength < size) :
    (smugglingBody size fits).bytes =
      stowawayFrame ++ (stowawayFrame ++ List.replicate (size - 2 * headerLength) 0) := by
  refine List.take_of_length_le ?_
  simp only [maxBodyLength] at large
  simp only [List.length_append, stowawayFrame_length, List.length_replicate, headerLength]
  omega

theorem smugglingBody_length {size : Nat} (fits : size < 2 ^ 32) (large : maxBodyLength < size) :
    (smugglingBody size fits).bytes.length = size := by
  rw [smugglingBody_bytes fits large]
  simp only [maxBodyLength] at large
  simp only [List.length_append, stowawayFrame_length, List.length_replicate, headerLength]
  omega

def Packet.Oversize (pack : Packet) : Prop := maxBodyLength < pack.body.bytes.length

instance (pack : Packet) : Decidable pack.Oversize := inferInstanceAs (Decidable (_ < _))

/-- The packet with stowaways in its body, where there is too much room for the decoder. -/
def Packet.smuggling (pack : Packet) : Packet :=
  if pack.Oversize then { pack with body := smugglingBody pack.body.bytes.length pack.body.size_lt } else pack

theorem Packet.smuggling_shape (pack : Packet) :
    pack.smuggling = { pack with body := pack.smuggling.body } ∧
      pack.smuggling.body.bytes.length = pack.body.bytes.length := by
  unfold smuggling
  split
  · rename_i oversize
    exact ⟨rfl, smugglingBody_length pack.body.size_lt oversize⟩
  · exact ⟨rfl, rfl⟩

/-- Of an oversize frame only the header is skipped: its body is scanned as if
it were stream data. -/
theorem decodeAll_oversize (seqGenerator : UInt32) (offset : Nat) {pack : Packet}
    (short : pack.deviceId.length < deviceIdSize) (oversize : pack.Oversize) (rest : List UInt8) :
    decodeAll seqGenerator offset (pack.frame short ++ rest) =
      decodeAll seqGenerator (offset + headerLength) (pack.body.bytes ++ rest) := by
  have verdict : packetVerdict (pack.frame short ++ rest) = .skip headerLength :=
    (packetVerdict_frame pack short rest).trans (if_pos oversize)
  rw [decodeAll_skip verdict, Packet.frame, List.append_assoc, List.drop_left' (PacketHeader.bytes_length _)]

/-- Two packets come out that nobody has sent, and nothing is left of the one that was. -/
theorem decodeAll_smuggling (seqGenerator : UInt32) (offset : Nat) {pack : Packet} (sendable : pack.smuggling.Sendable)
    (oversize : pack.Oversize) (rest : List UInt8) :
    ∃ first second stop, decodeAll seqGenerator offset (pack.smuggling.frame sendable.short ++ rest) =
      (decodeAll seqGenerator stop rest).map fun later => (first, stowaway) :: (second, stowaway) :: later := by
  have body : pack.smuggling.body.bytes =
      stowawayFrame ++ (stowawayFrame ++ List.replicate (pack.body.bytes.length - 2 * headerLength) 0) := by
    rw [Packet.smuggling, if_pos oversize]
    exact smugglingBody_bytes pack.body.size_lt oversize
  have still : pack.smuggling.Oversize := oversize.trans_eq pack.smuggling_shape.2.symm
  have run := decodeAll_oversize seqGenerator offset sendable.short still rest
  rw [body, List.append_assoc, List.append_assoc, decodeAll_stowaway, decodeAll_stowaway, decodeAll_zeros,
    Option.map_map] at run
  exact ⟨_, _, _, run⟩

theorem Packet.Sendable.withBody {pack : Packet} (sendable : pack.Sendable) {body : Ibuffer}
    (size : body.bytes.length = pack.body.bytes.length) : ({ pack with body := body } : Packet).Sendable :=
  ⟨sendable.short, sendable.nulFree, sendable.seq, size ▸ sendable.fits⟩

theorem SameShape.origin {packs packs' : List Packet} (shape : SameShape packs packs') {q : Packet}
    (member : q ∈ packs') :
    ∃ p ∈ packs, q = { p with body := q.body } ∧ q.body.bytes.length = p.body.bytes.length := by
  induction shape with
  | nil => cases member
  | cons head _ ih =>
    rcases List.mem_cons.mp member with rfl | later
    · exact ⟨_, List.mem_cons_self, head⟩
    · obtain ⟨p, inside, same⟩ := ih later
      exact ⟨p, List.mem_cons_of_mem _ inside, same⟩

theorem sentAt_packs (offset : Nat) (packs : List Packet) : (sentAt offset packs).map Prod.snd = packs := by
  induction packs generalizing offset with
  | nil => rfl
  | cons pack packs ih => rw [sentAt, List.map_cons, ih]

theorem NotSmuggled.subsequence {packs : List Packet} (notSmuggled : NotSmuggled packs) : Subsequence packs := by
  intro gen stream encoded
  obtain ⟨found, run, sublist⟩ := notSmuggled gen stream encoded
  exact ⟨found, run, sentAt_packs 0 packs ▸ sublist.map Prod.snd⟩

theorem notSmuggled_of_small {packs : List Packet} (sendable : ∀ p ∈ packs, p.Sendable)
    (small : ∀ p ∈ packs, p.body.bytes.length ≤ maxBodyLength) : NotSmuggled packs := by
  intro gen stream encoded
  have run := decodeAll_encodeStream gen sendable small encoded 0 []
  rw [List.append_nil, decodeAll_nil, Option.map_some, List.append_nil] at run
  exact ⟨_, run, .refl _⟩

theorem sameShape_smuggling (packs : List Packet) : SameShape packs (packs.map Packet.smuggling) := by
  induction packs with
  | nil => exact .nil
  | cons pack packs ih => exact .cons pack.smuggling_shape ih

/-- With stowaways in every oversize body more packets come out than were sent. -/
theorem length_decodeAll_smuggling (seqGenerator : UInt32) (offset : Nat) {packs : List Packet}
    (sendable : ∀ p ∈ packs, p.Sendable) :
    ∃ stream, encodeStream (packs.map Packet.smuggling) = some stream ∧
      ∀ found, decodeAll seqGenerator offset stream = some found →
        packs.length + packs.countP (fun p => p.Oversize) ≤ found.length := by
  induction packs generalizing offset with
  | nil => exact ⟨[], rfl, fun found _ => Nat.zero_le _⟩
  | cons pack packs ih =>
    have others : ∀ p ∈ packs, p.Sendable := fun p member => sendable p (List.mem_cons_of_mem _ member)
    have first : pack.smuggling.Sendable := by
      rw [pack.smuggling_shape.1]
      exact (sendable pack List.mem_cons_self).withBody pack.smuggling_shape.2
    by_cases oversize : pack.Oversize
    · obtain ⟨rest, encoded, _⟩ := ih 0 others
      obtain ⟨_, _, stop, decoded⟩ := decodeAll_smuggling seqGenerator offset first oversize rest
      obtain ⟨rest', encoded', later⟩ := ih stop others
      cases encoded.symm.trans encoded'
      refine ⟨_, encodeStream_cons first encoded, fun found run => ?_⟩
      rw [decoded] at run
      obtain ⟨tail, after, rfl⟩ := Option.map_eq_some_iff.mp run
      have bound := later tail after
      simp only [List.length_cons, List.countP_cons, oversize, decide_true, if_true]
      omega
    · obtain ⟨rest, encoded, later⟩ := ih (offset + (pack.smuggling.frame first.short).length) others
      have small : pack.smuggling.body.bytes.length ≤ maxBodyLength := by
        rw [pack.smuggling_shape.2]
        exact not_lt.mp oversize
      refine ⟨_, encodeStream_cons first encoded, fun found run => ?_⟩
      rw [decodeAll_found (decodePacket_sendable seqGenerator first small rest), List.drop_left] at run
      obtain ⟨tail, after, rfl⟩ := Option.map_eq_some_iff.mp run
      have bound := later tail after
      simp only [List.length_cons, List.countP_cons, oversize, decide_false, Bool.false_eq_true, if_false]
      omega

/-- Exactly the sizes decide: whatever their contents, nothing is smuggled in
the bodies of a list of packets if and only if none of them is oversize. Within
the bound the packets are even found where they stand. -/
theorem notSmuggled_iff {packs : List Packet} (sendable : ∀ p ∈ packs, p.Sendable) :
    ((∀ packs', SameShape packs packs' → Subsequence packs') ↔
        ∀ p ∈ packs, p.body.bytes.length ≤ maxBodyLength) ∧
      ((∀ p ∈ packs, p.body.bytes.length ≤ maxBodyLength) →
        ∀ packs', SameShape packs packs' → NotSmuggled packs') := by
  have within (small : ∀ p ∈ packs, p.body.bytes.length ≤ maxBodyLength) (packs' : List Packet)
      (shape : SameShape packs packs') : NotSmuggled packs' := by
    refine notSmuggled_of_small (fun q member => ?_) fun q member => ?_
    · obtain ⟨p, inside, same, size⟩ := shape.origin member
      rw [same]
      exact (sendable p inside).withBody size
    · obtain ⟨p, inside, _, size⟩ := shape.origin member
      exact size ▸ small p inside
  refine ⟨⟨fun safe => ?_, fun small packs' shape => (within small packs' shape).subsequence⟩, within⟩
  by_contra oversize
  push Not at oversize
  obtain ⟨p, member, large⟩ := oversize
  obtain ⟨stream, encoded, more⟩ := length_decodeAll_smuggling 0 0 sendable
  obtain ⟨found, run, sublist⟩ := safe _ (sameShape_smuggling packs) 0 stream encoded
  have few := sublist.length_le
  have many := more found run
  have some : 0 < packs.countP (fun p => p.Oversize) :=
    List.countP_pos_iff.mpr ⟨p, member, decide_eq_true large⟩
  rw [List.length_map, List.length_map] at few
  omega

/-- A packet whose body is the frame of another one. -/
def enclosing : Packet := ⟨2, 2, false, 0, [0x61], ⟨stowawayFrame, by decide +kernel⟩⟩

/-- A list with the two, and with a packet that has a body of its own. -/
theorem notSmuggled_enclosing_iff :
    ((∀ packs', SameShape [ping, enclosing, stowaway] packs' → Subsequence packs') ↔
        ∀ p ∈ [ping, enclosing, stowaway], p.body.bytes.length ≤ maxBodyLength) ∧
      (∀ packs', SameShape [ping, enclosing, stowaway] packs' → NotSmuggled packs') ∧
      NotSmuggled [ping, enclosing, stowaway] := by
  have sendable : ∀ p ∈ [ping, enclosing, stowaway], p.Sendable := by
    intro p member
    simp only [List.mem_cons, List.not_mem_nil, or_false] at member
    rcases member with rfl | rfl | rfl
    · exact ⟨by decide, by decide, by decide, by decide⟩
    · exact ⟨by decide, by decide, by decide, by decide +kernel⟩
    · exact stowaway_sendable
  obtain ⟨exact, within⟩ := notSmuggled_iff sendable
  have safe := within (by decide +kernel)
  exact ⟨exact, safe, safe _ (.cons ⟨rfl, rfl⟩ (.cons ⟨rfl, rfl⟩ (.cons ⟨rfl, rfl⟩ .nil)))⟩

/-- A packet with one byte more than permitted. -/
def carrier : Packet := ⟨7, 7, false, 0, [0x61], smugglingBody 16385 (by decide)⟩

theorem carrier_oversize : carrier.Oversize := by
  rw [Packet.Oversize, carrier, smugglingBody_length _ (by decide)]
  decide

theorem carrier_sendable : carrier.Sendable :=
  ⟨by decide, by decide, by decide, by
    rw [carrier, smugglingBody_length _ (by decide)]
    decide⟩

/-- The encoder takes the carrier, and the decoder makes another packet of it. -/
theorem decodeAll_carrier : ¬∀ packs : List Packet, (∀ p ∈ packs, p.Sendable) → Subsequence packs := by
  intro claim
  have sendable : ∀ p ∈ [carrier], p.Sendable := fun p member => List.mem_singleton.mp member ▸ carrier_sendable
  have body : carrier.body.bytes =
      stowawayFrame ++ (stowawayFrame ++ List.replicate (16385 - 2 * headerLength) 0) :=
    smugglingBody_bytes (by decide) (by decide)
  obtain ⟨found, run, sublist⟩ := claim _ sendable 0 _ (encodeStream_cons carrier_sendable rfl)
  rw [decodeAll_oversize _ _ carrier_sendable.short carrier_oversize, body, List.append_assoc,
    decodeAll_stowaway] at run
  obtain ⟨later, _, rfl⟩ := Option.map_eq_some_iff.mp run
  have member : stowaway ∈ [carrier] := sublist.subset List.mem_cons_self
  have same := congrArg Packet.cmd (List.mem_singleton.mp member)
  exact absurd same (by decide)

end Asyncmsg
