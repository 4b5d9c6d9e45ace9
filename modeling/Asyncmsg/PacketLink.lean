import Asyncmsg.Delivery
import Asyncmsg.FrameOrder

namespace Asyncmsg
open Transition Turns Scanning

def Packet.frameSize (pack : Packet) : Nat := headerLength + pack.body.bytes.length

/-- How many bytes the frames of these packets have together. -/
def streamSize (packs : List Packet) : Nat := (packs.map Packet.frameSize).sum

@[simp] theorem streamSize_nil : streamSize [] = 0 := rfl

@[simp] theorem streamSize_cons (pack : Packet) (packs : List Packet) :
    streamSize (pack :: packs) = pack.frameSize + streamSize packs := List.sum_cons

/-- The packets whose frames are complete in the first bytes of a stream. -/
structure Complete (packs : List Packet) (bytes count : Nat) : Prop where
  within : count ≤ packs.length
  lower : streamSize (packs.take count) ≤ bytes
  upper : count < packs.length → bytes < streamSize (packs.take (count + 1))

section Stream
variable {common : List UInt8} {packs : List Packet} {stream : List UInt8}

theorem encodeStream_shortIds (short : common.length < deviceIdSize) (nulFree : 0 ∉ common)
    (legal : ∀ pack ∈ packs, pack.Deliverable common) (encoded : encodeStream packs = some stream) :
    ShortIds stream := by
  obtain ⟨same, _, encoded', shortIds, _⟩ :=
    whole_encodeStream (r := ⟨0, [], []⟩) short nulFree legal (Or.inl rfl)
  cases encoded.symm.trans encoded'
  exact shortIds

/-- The session of the beginning of a stream: the packets whose frames are
complete are decoded, in order, and the connection lives on. -/
theorem whole_take (short : common.length < deviceIdSize) (nulFree : 0 ∉ common)
    (legal : ∀ pack ∈ packs, pack.Deliverable common) (encoded : encodeStream packs = some stream) {bytes : Nat}
    (within : bytes ≤ stream.length) {r : Receiver} (bound : r.deviceId = [] ∨ r.deviceId = common) :
    ∃ count t pending, Complete packs bytes count ∧
      Session.whole packetScanner consumeFrame r (stream.take bytes) = .live t pending ∧
      t.decodedPackets = r.decodedPackets ++ packs.take count := by
  induction packs generalizing stream bytes r with
  | nil =>
    cases encoded
    have none : bytes = 0 := Nat.le_zero.mp within
    subst none
    refine ⟨0, r, [], ⟨Nat.le_refl 0, Nat.le_refl 0, fun more => absurd more (Nat.lt_irrefl 0)⟩, ?_, by simp⟩
    rw [List.take_nil, Session.whole, frames_nil, residue_nil, consume_nil]
  | cons pack packs ih =>
    have first := legal pack List.mem_cons_self
    have sendable := first.sendable short nulFree
    obtain ⟨rest, tail⟩ := encodeStream_exists fun other member =>
      (legal other (List.mem_cons_of_mem _ member)).sendable short nulFree
    cases encoded.symm.trans (encodeStream_cons sendable tail)
    have size : (pack.frame sendable.short).length = pack.frameSize := pack.frame_length sendable.short
    by_cases part : bytes < pack.frameSize
    · -- the first frame is not there yet
      have verdict : packetScanner.classify (pack.frame sendable.short ++ rest) = .frame pack.frameSize := by
        rw [packetScanner_classify, packetVerdict_frame, if_neg (not_lt.mpr first.body), size]
      have waiting := Scanner.classify_take verdict part
      refine ⟨0, r, (pack.frame sendable.short ++ rest).take bytes, ⟨Nat.zero_le _, Nat.zero_le _, fun _ => ?_⟩, ?_, ?_⟩
      · simpa using part
      · rw [Session.whole, Scanner.frames_wait waiting, Scanner.residue_wait waiting, consume_nil]
      · simp
    · rw [List.length_append, size] at within
      obtain ⟨next, handled, bound', decoded⟩ := first.handle bound
      obtain ⟨count, t, pending, complete, whole, all⟩ := ih
        (fun other member => legal other (List.mem_cons_of_mem _ member)) tail
        (show bytes - pack.frameSize ≤ rest.length by omega) bound'
      have split : (pack.frame sendable.short ++ rest).take bytes =
          pack.frame sendable.short ++ rest.take (bytes - pack.frameSize) := by
        rw [List.take_append, size, List.take_of_length_le (by omega)]
      obtain ⟨frames, residue⟩ := scan_frame pack sendable.short first.body (rest.take (bytes - pack.frameSize))
      refine ⟨count + 1, t, pending, ⟨?_, ?_, fun more => ?_⟩, ?_, ?_⟩
      · exact Nat.succ_le_succ complete.within
      · have lower := complete.lower
        rw [List.take_succ_cons, streamSize_cons]
        omega
      · have upper := complete.upper (Nat.lt_of_succ_lt_succ more)
        rw [List.take_succ_cons, streamSize_cons]
        omega
      · rw [split, Session.whole, frames, residue, consume_cons, consumeFrame_frame sendable, handled]
        exact whole
      · rw [all, decoded, List.take_succ_cons, List.append_assoc, List.singleton_append]

end Stream

theorem Call.sent_prefix (call : Call) : call.sent <+: call.frame := by
  rcases call with ⟨kind, pack, frame, encoded, phase⟩
  cases phase with
  | queued => exact List.nil_prefix
  | dropped => exact List.nil_prefix
  | writing rest => exact List.take_prefix _ _
  | _ => exact List.prefix_rfl

namespace Sender
variable {s t : Sender} {a : Action}

/-- A transfer splits no frame, and follows no failed write: that has ended the
stream of the socket. -/
def Serial (s : Sender) : Action → Prop
  | .transfer i n => s.Unsplit (.transfer i n) ∧ ∀ call ∈ s.calls, call.phase ≠ .threw .write
  | _ => True

instance (s : Sender) (a : Action) : Decidable (s.Serial a) :=
  match a with
  | .transfer i n => inferInstanceAs
      (Decidable (s.Unsplit (.transfer i n) ∧ ∀ call ∈ s.calls, call.phase ≠ .threw .write))
  | .send _ _ | .runDetached _ | .failWrite _ | .writeDone _ | .response _ | .timeout _ | .cancel _ | .resume _
  | .destroy => inferInstanceAs (Decidable True)

theorem Serial.unsplit (serial : s.Serial a) : s.Unsplit a := by
  cases a with
  | transfer => exact serial.1
  | _ => trivial

def callsAt (s : Sender) (order : List Nat) : List Call := order.filterMap (s.calls[·]?)

/-- What the socket has taken is the beginning of the frames of these calls. -/
structure Intact (s : Sender) (order : List Nat) : Prop where
  nodup : order.Nodup
  inside : ∀ i ∈ order, i < s.calls.length
  wire : s.wire <+: ((s.callsAt order).map Call.frame).flatten

/-- The calls keep their packets and their frames. -/
theorem Moves.callsAt (moves : Moves s a t) {order : List Nat} (inside : ∀ i ∈ order, i < s.calls.length) :
    (∀ i ∈ order, i < t.calls.length) ∧ (t.callsAt order).map Call.frame = (s.callsAt order).map Call.frame ∧
      (t.callsAt order).map Call.pack = (s.callsAt order).map Call.pack := by
  induction order with
  | nil => exact ⟨nofun, rfl, rfl⟩
  | cons i order ih =>
    obtain ⟨first, rest⟩ := List.forall_mem_cons.mp inside
    obtain ⟨inside', frames, packs⟩ := ih rest
    have found : s.calls[i]? = some s.calls[i] := List.getElem?_eq_getElem first
    obtain ⟨later, there, phase, rfl, _⟩ := moves.advances i _ found
    refine ⟨List.forall_mem_cons.mpr ⟨(List.getElem?_eq_some_iff.mp there).1, inside'⟩, ?_, ?_⟩
    · simp only [Sender.callsAt] at frames ⊢
      rw [List.filterMap_cons_some there, List.filterMap_cons_some found, List.map_cons, List.map_cons, frames]
      rfl
    · simp only [Sender.callsAt] at packs ⊢
      rw [List.filterMap_cons_some there, List.filterMap_cons_some found, List.map_cons, List.map_cons, packs]
      rfl

/-- Writers that have taken turns have written the beginning of their frames. -/
theorem sentBy_prefix {order : List Nat} (tidy : ∀ call ∈ s.calls, call.phase.Tidy call.frame)
    (started : ∀ i ∈ order, s.sentBy i ≠ []) (whole : ∀ i ∈ order.dropLast, ¬s.PartwayAt i) :
    (∀ i ∈ order, i < s.calls.length) ∧
      (order.map s.sentBy).flatten <+: ((s.callsAt order).map Call.frame).flatten := by
  induction order with
  | nil => exact ⟨nofun, List.prefix_rfl⟩
  | cons i order ih =>
    obtain ⟨first, rest⟩ := List.forall_mem_cons.mp started
    obtain ⟨call, found⟩ : ∃ call, s.calls[i]? = some call := by
      cases there : s.calls[i]? with
      | none => exact absurd (by rw [sentBy, there]; rfl) first
      | some call => exact ⟨call, rfl⟩
    obtain ⟨inside, prefixed⟩ := ih rest fun j member => whole j (by
      cases order with
      | nil => cases member
      | cons => exact List.mem_cons_of_mem _ member)
    refine ⟨List.forall_mem_cons.mpr ⟨(List.getElem?_eq_some_iff.mp found).1, inside⟩, ?_⟩
    rw [callsAt, List.filterMap_cons_some found, List.map_cons, List.map_cons, List.flatten_cons, List.flatten_cons]
    rw [sentBy_of_found found] at first ⊢
    cases order with
    | nil => simpa using call.sent_prefix
    | cons j order =>
      -- only the last one can be partway
      have ended : call.sent = call.frame := call.sent_eq_frame (tidy call (List.mem_of_getElem? found)) first
        fun partway => whole i List.mem_cons_self ⟨call, found, partway⟩
      rw [ended]
      exact (List.prefix_append_right_inj _).mpr prefixed

theorem intact_of_inOrder {order : List Nat} (tidy : ∀ call ∈ s.calls, call.phase.Tidy call.frame)
    (inOrder : InOrder s.wire s.sentBy s.PartwayAt order) : s.Intact order := by
  obtain ⟨inside, prefixed⟩ := sentBy_prefix tidy (fun i => (inOrder.started i).mp) inOrder.whole
  exact ⟨inOrder.nodup, inside, inOrder.wire ▸ prefixed⟩

/-- The wire stays the beginning of whole frames, also behind a failed write. -/
theorem Moves.intact (moves : Moves s a t) (serial : s.Serial a) (orderly : s.Orderly) {order : List Nat}
    (intact : s.Intact order) : ∃ order', t.Intact order' := by
  cases socket : a.usesSocket with
  | false =>
    obtain ⟨inside, frames, _⟩ := moves.callsAt intact.inside
    exact ⟨order, intact.nodup, inside, by rw [frames, moves.wire socket]; exact intact.wire⟩
  | true =>
    cases moves with
    | @transfer i n call rest found writing _ positive within =>
      obtain ⟨unsplit, sound⟩ := serial
      obtain ⟨order, inOrder⟩ := orderly.turns.resolve_left fun ⟨call, member, failed⟩ => sound call member failed
      obtain ⟨order', inOrder'⟩ := transfer_inOrder inOrder found writing
        (orderly.tidy call (List.mem_of_getElem? found) rest writing) positive within unsplit
      have tidy := (Moves.transfer found writing ‹_› positive within).tidy orderly.tidy
      exact ⟨order', intact_of_inOrder tidy inOrder'⟩
    | @failWrite i call rest found writing unfinished =>
      obtain ⟨inside, frames, _⟩ := (Moves.failWrite found writing unfinished).callsAt intact.inside
      exact ⟨order, intact.nodup, inside, by rw [frames]; exact intact.wire⟩
    | _ => cases socket

theorem Moves.wire_prefix (moves : Moves s a t) : s.wire <+: t.wire := by
  cases socket : a.usesSocket with
  | false => rw [moves.wire socket]
  | true =>
    cases moves with
    | transfer => exact List.prefix_append _ _
    | failWrite => exact List.prefix_rfl
    | _ => cases socket

/-- The packets of all calls are among those of this kind. -/
def All (P : Packet → Prop) (s : Sender) : Prop := ∀ call ∈ s.calls, P call.pack

/-- A call that the action starts is for a packet of this kind. -/
def Action.Sends (P : Packet → Prop) : Action → Prop
  | .send _ pack => P pack
  | _ => True

instance (P : Packet → Prop) [DecidablePred P] (a : Action) : Decidable (a.Sends P) :=
  match a with
  | .send _ pack => inferInstanceAs (Decidable (P pack))
  | .transfer _ _ | .runDetached _ | .failWrite _ | .writeDone _ | .response _ | .timeout _ | .cancel _ | .resume _
  | .destroy => inferInstanceAs (Decidable True)

theorem Moves.all (moves : Moves s a t) {P : Packet → Prop} (all : s.All P) (sends : a.Sends P) : t.All P := by
  intro later member
  obtain ⟨i, found⟩ := List.mem_iff_getElem?.mp member
  rcases moves.found found with ⟨call, before, advances⟩ | ⟨send, _⟩
  · rw [advances.same.2]
    exact all call (List.mem_of_getElem? before)
  · subst send
    exact sends

theorem All.callsAt {P : Packet → Prop} (all : s.All P) (order : List Nat) :
    ∀ pack ∈ (s.callsAt order).map Call.pack, P pack := by
  intro pack member
  obtain ⟨call, inside, rfl⟩ := List.mem_map.mp member
  obtain ⟨i, _, found⟩ := List.mem_filterMap.mp inside
  exact all call (List.mem_of_getElem? found)

end Sender

/-- One direction of a connection: the side that sends, the receive loop of the
other side, and how many bytes of the stream that one has read. -/
structure Link where
  sender : Sender
  loop : ReceiveLoop
  taken : Nat

namespace Link

def start (seqGenerator : UInt32) : Option Link :=
  (ReceiveLoop.start seqGenerator).map fun loop => ⟨.start, loop, 0⟩

/-- A step of the sending side, or the end of the read on the other side: with
the next bytes of the stream, or without. -/
inductive Action
  | sender (a : Sender.Action)
  | arrive (n : Nat)
  | lose (result : ReadResult)

def step (s : Link) : Action → Option Link
  | .sender a => (s.sender.step a).map fun sender => { s with sender := sender }
  | .arrive n => s.loop.slab.bind fun slab =>
    if n ≤ slab.size ∧ s.taken + n ≤ s.sender.wire.length then
      (s.loop.read ((s.sender.wire.drop s.taken).take n)).map fun loop => { s with loop := loop, taken := s.taken + n }
    else none
  | .lose result => s.loop.slab.bind fun slab =>
    match result with
    | .done _ => none
    | result => (s.loop.resume slab result).map fun loop => { s with loop := loop }

variable {common : List UInt8} {s t : Link} {a : Action} {seqGenerator : UInt32}

/-- Nothing but packets for the connection is sent, and the frames are written
one after the other. -/
def Fair (common : List UInt8) (s : Link) : Action → Prop
  | .sender a => a.Sends (Packet.Deliverable common) ∧ s.sender.Serial a
  | _ => True

/-- The session of what the loop has read. -/
def session (seqGenerator : UInt32) (s : Link) : Session Receiver UInt8 :=
  .whole packetScanner consumeFrame ⟨seqGenerator, [], []⟩ (s.sender.wire.take s.taken)

/-- The loop follows the session of what it has read, or has followed it until
its read was lost. -/
def Heard (seqGenerator : UInt32) (s : Link) : Prop :=
  s.loop.Follows (s.session seqGenerator) ∨ s.loop.slab = none ∧ ∃ before : ReceiveLoop,
    before.Follows (s.session seqGenerator) ∧
      s.loop.conn.receiver.decodedPackets = before.conn.receiver.decodedPackets

structure Delivers (common : List UInt8) (seqGenerator : UInt32) (s : Link) : Prop where
  orderly : s.sender.Orderly
  intact : ∃ order, s.sender.Intact order
  legal : s.sender.All (Packet.Deliverable common)
  within : s.taken ≤ s.sender.wire.length
  heard : s.Heard seqGenerator

theorem start_delivers (started : start seqGenerator = some s) : s.Delivers common seqGenerator := by
  obtain ⟨loop, first, rfl⟩ := Option.map_eq_some_iff.mp started
  obtain ⟨loop', first', follows⟩ := ReceiveLoop.start_follows seqGenerator
  cases first.symm.trans first'
  refine ⟨Sender.start_orderly, ⟨[], List.nodup_nil, nofun, List.prefix_rfl⟩, nofun, Nat.le_refl 0, Or.inl ?_⟩
  rw [session, List.take_zero, Session.whole, frames_nil, residue_nil, consume_nil]
  exact follows

/-- What the wire holds is the beginning of the encodings of some of the packets sent. -/
theorem Delivers.stream (delivers : s.Delivers common seqGenerator) {order : List Nat} (intact : s.sender.Intact order) :
    ∃ stream, encodeStream ((s.sender.callsAt order).map Call.pack) = some stream ∧ s.sender.wire <+: stream ∧
      ∀ pack ∈ (s.sender.callsAt order).map Call.pack, pack.Deliverable common :=
  ⟨_, encodeStream_calls _, intact.wire, delivers.legal.callsAt order⟩

theorem Delivers.shortIds (short : common.length < deviceIdSize) (nulFree : 0 ∉ common)
    (delivers : s.Delivers common seqGenerator) (bytes : Nat) : ShortIds (s.sender.wire.take bytes) := by
  obtain ⟨order, intact⟩ := delivers.intact
  obtain ⟨stream, encoded, ⟨rest, split⟩, legal⟩ := delivers.stream intact
  have whole := encodeStream_shortIds short nulFree legal encoded
  rw [← split] at whole
  have wire : ShortIds (s.sender.wire.take bytes ++ s.sender.wire.drop bytes) := by
    rw [List.take_append_drop]
    exact whole.of_append
  exact wire.of_append

theorem Delivers.arrive (short : common.length < deviceIdSize) (nulFree : 0 ∉ common)
    (delivers : s.Delivers common seqGenerator) {n : Nat} (taken : s.step (.arrive n) = some t) :
    t.sender = s.sender ∧ t.taken ≤ t.sender.wire.length ∧ t.loop.Follows (t.session seqGenerator) := by
  obtain ⟨slab, reading, done⟩ := Option.bind_eq_some_iff.mp taken
  obtain ⟨⟨fits, available⟩, done⟩ := Option.ite_none_right_eq_some.mp done
  obtain ⟨loop, read, rfl⟩ := Option.map_eq_some_iff.mp done
  have follows := delivers.heard.resolve_right fun ⟨ended, _⟩ => by cases ended.symm.trans reading
  have grown : s.sender.wire.take s.taken ++ (s.sender.wire.drop s.taken).take n = s.sender.wire.take (s.taken + n) :=
    List.take_add.symm
  obtain ⟨next, read', follows'⟩ := ReceiveLoop.read_follows follows
    (grown ▸ delivers.shortIds short nulFree _) fun slab' reading' => by
      cases reading.symm.trans reading'
      exact (List.length_take_le _ _).trans fits
  cases read.symm.trans read'
  rw [grown] at follows'
  exact ⟨rfl, available, follows'⟩

theorem Delivers.step (short : common.length < deviceIdSize) (nulFree : 0 ∉ common)
    (delivers : s.Delivers common seqGenerator) (fair : s.Fair common a) (taken : s.step a = some t) :
    t.Delivers common seqGenerator := by
  cases a with
  | sender a =>
    obtain ⟨sender, sent, rfl⟩ := Option.map_eq_some_iff.mp taken
    obtain ⟨legal, serial⟩ := fair
    have moves := Sender.moves_of_step sent
    obtain ⟨order, intact⟩ := delivers.intact
    obtain ⟨more, grown⟩ := moves.wire_prefix
    have same : sender.wire.take s.taken = s.sender.wire.take s.taken := by
      rw [← grown, List.take_append_of_le_length delivers.within]
    refine ⟨moves.orderly serial.unsplit delivers.orderly, moves.intact serial delivers.orderly intact,
      moves.all delivers.legal legal, ?_, ?_⟩
    · exact delivers.within.trans (by rw [← grown, List.length_append]; exact Nat.le_add_right _ _)
    · rw [Heard, session, same]
      exact delivers.heard
  | arrive n =>
    obtain ⟨same, within, follows⟩ := delivers.arrive short nulFree taken
    exact ⟨same ▸ delivers.orderly, same ▸ delivers.intact, same ▸ delivers.legal, within, Or.inl follows⟩
  | lose result =>
    obtain ⟨slab, reading, done⟩ := Option.bind_eq_some_iff.mp taken
    have follows := delivers.heard.resolve_right fun ⟨ended, _⟩ => by cases ended.symm.trans reading
    cases result with
    | done => cases done
    | expired =>
      cases done
      exact ⟨delivers.orderly, delivers.intact, delivers.legal, delivers.within, Or.inr ⟨rfl, s.loop, follows, rfl⟩⟩
    | failed =>
      cases done
      exact ⟨delivers.orderly, delivers.intact, delivers.legal, delivers.within,
        Or.inr ⟨rfl, s.loop, follows, Receiver.decodedPackets_disconnect _⟩⟩

/-- The session of packets for the connection lives on, and has decoded those
whose frames have been read in full, in the order of their frames. -/
theorem Delivers.session_live (short : common.length < deviceIdSize) (nulFree : 0 ∉ common)
    (delivers : s.Delivers common seqGenerator) {order : List Nat} (intact : s.sender.Intact order) :
    ∃ count receiver pending, Complete ((s.sender.callsAt order).map Call.pack) s.taken count ∧
      s.session seqGenerator = .live receiver pending ∧
      receiver.decodedPackets = ((s.sender.callsAt order).map Call.pack).take count := by
  obtain ⟨stream, encoded, ⟨rest, split⟩, legal⟩ := delivers.stream intact
  have read : stream.take s.taken = s.sender.wire.take s.taken := by
    rw [← split, List.take_append_of_le_length delivers.within]
  have inside : s.taken ≤ stream.length := by
    rw [← split, List.length_append]
    exact delivers.within.trans (Nat.le_add_right _ _)
  obtain ⟨count, receiver, pending, complete, whole, decoded⟩ :=
    whole_take (r := ⟨seqGenerator, [], []⟩) short nulFree legal encoded inside (Or.inl rfl)
  rw [read, ← session] at whole
  exact ⟨count, receiver, pending, complete, whole, decoded⟩

theorem Delivers.decoded (short : common.length < deviceIdSize) (nulFree : 0 ∉ common)
    (delivers : s.Delivers common seqGenerator) {order : List Nat} (intact : s.sender.Intact order) :
    ∃ count, Complete ((s.sender.callsAt order).map Call.pack) s.taken count ∧
      s.loop.conn.receiver.decodedPackets = ((s.sender.callsAt order).map Call.pack).take count := by
  obtain ⟨count, receiver, pending, complete, live, decoded⟩ := delivers.session_live short nulFree intact
  refine ⟨count, complete, ?_⟩
  rcases delivers.heard with follows | ⟨_, before, follows, same⟩
  · rw [live] at follows
    rw [follows.of_live.1, decoded]
  · rw [live] at follows
    rw [same, follows.of_live.1, decoded]

/-- The loop of packets for the connection never ends by itself. -/
theorem Delivers.reading (short : common.length < deviceIdSize) (nulFree : 0 ∉ common)
    (delivers : s.Delivers common seqGenerator) (follows : s.loop.Follows (s.session seqGenerator)) :
    s.loop.reading = true := by
  obtain ⟨order, intact⟩ := delivers.intact
  obtain ⟨_, _, _, _, live, _⟩ := delivers.session_live short nulFree intact
  rw [live] at follows
  exact follows.of_live.2.2

theorem run_delivers (short : common.length < deviceIdSize) (nulFree : 0 ∉ common) {first : Link}
    (started : start seqGenerator = some first) {labels : List Action} (run : Run step (Fair common) first labels s) :
    s.Delivers common seqGenerator ∧ (s.loop.reading = true ∨ ∃ result, .lose result ∈ labels) := by
  have delivers {labels : List Action} {s : Link} (run : Run step (Fair common) first labels s) :
      s.Delivers common seqGenerator :=
    run.invariant (start_delivers started) fun _ _ _ delivers fair taken => delivers.step short nulFree fair taken
  refine ⟨delivers run, ?_⟩
  induction run with
  | nil =>
    obtain ⟨loop, first', rfl⟩ := Option.map_eq_some_iff.mp started
    obtain ⟨loop', first'', follows⟩ := ReceiveLoop.start_follows seqGenerator
    cases first'.symm.trans first''
    exact Or.inl follows.of_live.2.2
  | @snoc labels s a t before fair taken ih =>
    rcases ih with reading | ⟨result, lost⟩
    · cases a with
      | sender a =>
        obtain ⟨sender, _, rfl⟩ := Option.map_eq_some_iff.mp taken
        exact Or.inl reading
      | arrive n =>
        have follows := ((delivers before).arrive short nulFree taken).2.2
        exact Or.inl ((delivers (.snoc before fair taken)).reading short nulFree follows)
      | lose result => exact Or.inr ⟨result, by simp⟩
    · exact Or.inr ⟨result, List.mem_append_left _ lost⟩

/-- The link is a queue of packets: at every moment the wire holds the beginning
of the frames of some of the packets sent, one after the other, and the other
side has decoded those whose frames it has read in full, in this order and no
others, however the writes and the reads are cut and interleaved. It reads on
until its read is lost. -/
theorem delivers_prefix (short : common.length < deviceIdSize) (nulFree : 0 ∉ common) {first : Link}
    (started : start seqGenerator = some first) {labels : List Action} (run : Run step (Fair common) first labels s) :
    (∃ order stream count, order.Nodup ∧ encodeStream ((s.sender.callsAt order).map Call.pack) = some stream ∧
      s.sender.wire <+: stream ∧ Complete ((s.sender.callsAt order).map Call.pack) s.taken count ∧
      s.loop.conn.receiver.decodedPackets = ((s.sender.callsAt order).map Call.pack).take count) ∧
      (s.loop.reading = true ∨ ∃ result, .lose result ∈ labels) := by
  obtain ⟨delivers, reads⟩ := run_delivers short nulFree started run
  obtain ⟨order, intact⟩ := delivers.intact
  obtain ⟨stream, encoded, grown, _⟩ := delivers.stream intact
  obtain ⟨count, complete, decoded⟩ := delivers.decoded short nulFree intact
  exact ⟨⟨order, stream, count, intact.nodup, encoded, grown, complete, decoded⟩, reads⟩

instance (common : List UInt8) : DecidablePred (Packet.Deliverable common) := fun pack =>
  decidable_of_iff (pack.seq ≠ 0 ∧ pack.body.bytes.length ≤ maxBodyLength ∧
    (pack.deviceId = [] ∨ pack.deviceId = common))
    ⟨fun ⟨seq, body, id⟩ => ⟨seq, body, id⟩, fun ⟨seq, body, id⟩ => ⟨seq, body, id⟩⟩

/-- A run of the sending side is one of the link. -/
theorem run_sender (loop : ReceiveLoop) (bytes : Nat) {first last : Sender} {labels : List Sender.Action}
    (run : Run Sender.step (fun s a => a.Sends (Packet.Deliverable common) ∧ s.Serial a) first labels last) :
    Run step (Fair common) ⟨first, loop, bytes⟩ (labels.map .sender) ⟨last, loop, bytes⟩ := by
  induction run with
  | nil => exact .nil
  | snoc _ met taken ih =>
    rw [List.map_append]
    exact .snoc ih met (by rw [step, taken]; rfl)

/-- The beginning of `ping` is on its way, and the first byte has been read. -/
theorem delivers_prefix_ping :
    ∃ first labels s, start 0 = some first ∧ Run step (Fair [0x61]) first labels s ∧
      (∃ order stream count, order.Nodup ∧ encodeStream ((s.sender.callsAt order).map Call.pack) = some stream ∧
        s.sender.wire <+: stream ∧ Complete ((s.sender.callsAt order).map Call.pack) s.taken count ∧
        s.loop.conn.receiver.decodedPackets = ((s.sender.callsAt order).map Call.pack).take count) ∧
      (s.loop.reading = true ∨ ∃ result, .lose result ∈ labels) := by
  obtain ⟨loop, started, follows⟩ := ReceiveLoop.start_follows 0
  have trace : (exec Sender.step (fun s a => a.Sends (Packet.Deliverable [0x61]) ∧ s.Serial a) .start
      [.send .packet ping, .transfer 0 40]).map (·.wire.length) = some 40 := by
    decide +kernel
  obtain ⟨sender, done, length⟩ := Option.map_eq_some_iff.mp trace
  have first : start 0 = some ⟨.start, loop, 0⟩ := by rw [start, started]; rfl
  have sent := run_sender loop 0 (exec_run done)
  have delivers := (run_delivers (by decide) (by decide) first sent).1
  obtain ⟨slab, reading, room⟩ : ∃ slab, loop.slab = some slab ∧ 0 < slab.size := by
    generalize session : Session.live (⟨0, [], []⟩ : Receiver) ([] : List UInt8) = live at follows
    cases follows with
    | live _ _ _ _ room _ => exact ⟨_, rfl, room⟩
    | closed => cases session
  have start : Session.whole packetScanner consumeFrame ⟨0, [], []⟩ ([] : List UInt8) = .live ⟨0, [], []⟩ [] := by
    rw [Session.whole, frames_nil, residue_nil, consume_nil]
  have short : ShortIds ([] ++ sender.wire.take 1) := delivers.shortIds (by decide) (by decide) 1
  obtain ⟨next, read, _⟩ := ReceiveLoop.read_follows (start ▸ follows) short fun slab' reading' => by
    cases reading.symm.trans reading'
    exact (List.length_take_le _ _).trans room
  have arrived : step ⟨sender, loop, 0⟩ (.arrive 1) = some ⟨sender, next, 1⟩ := by
    have fits : 1 ≤ slab.size ∧ 0 + 1 ≤ sender.wire.length := ⟨room, by omega⟩
    rw [step, reading, Option.bind_some, if_pos fits, List.drop_zero, read]
    rfl
  have fair : Fair [0x61] ⟨sender, loop, 0⟩ (.arrive 1) := trivial
  have run := sent.snoc fair arrived
  exact ⟨_, _, _, first, run, delivers_prefix (by decide) (by decide) first run⟩

end Link
end Asyncmsg
