import Asyncmsg.Acknowledgement
import Asyncmsg.Inactivity

namespace Asyncmsg

/-- A connection as its two coroutines see it: the generator of its process, its
device id, whether they still run, and what `check` goes by. -/
structure Endpoint where
  seqGenerator : UInt32
  deviceId : List UInt8
  live : Bool
  watch : Watch

namespace Endpoint
variable (p : Endpoint) (now : Nat)

/-- One round of `process_packet`, with what the owner of the connection gets:
`last_recv_time` is set only behind the checks of the device id. -/
def hear (pack : Packet) : Endpoint × List Event :=
  let (receiver, live) := (⟨p.seqGenerator, p.deviceId, []⟩ : Receiver).handle pack
  (⟨receiver.seqGenerator, receiver.deviceId, live,
    if .refreshed ∈ receiver.events then p.watch.receive now else p.watch⟩, receiver.events)

/-- The bytes of a frame come in. -/
def read (bs : List UInt8) : Option (Endpoint × List Event) :=
  if p.live then
    match decodePacket p.seqGenerator bs with
    | none => none
    | some ⟨none, _, seqGenerator⟩ => some ({ p with seqGenerator := seqGenerator }, [])
    | some ⟨some pack, _, seqGenerator⟩ => some (({ p with seqGenerator := seqGenerator } : Endpoint).hear now pack)
  else none

/-- The end of `check` ends `receive_packet` too. -/
def check : Option Endpoint :=
  if p.live then
    (p.watch.check now).map fun watch => { p with live := watch.checkTimer.isSome, watch := watch }
  else none

/-- The id of the connection is that of the device, or not yet known. -/
def Of (deviceId : List UInt8) : Prop := p.deviceId = [] ∨ p.deviceId = deviceId

variable {p}

/-- A packet without a device id is passed over, and `last_recv_time` stays. -/
theorem hear_nameless {pack : Packet} (nameless : pack.deviceId = []) :
    p.hear now pack = ({ p with live := true }, [.decoded pack]) := by
  rcases Receiver.handle_cases ⟨p.seqGenerator, p.deviceId, []⟩ pack with
    ⟨_, handled⟩ | ⟨named, _⟩ | ⟨named, _⟩ | ⟨named, _⟩
  · simp [hear, handled, Receiver.emit]
  all_goals exact absurd nameless named

/-- A packet of the device sets `last_recv_time`, and is handed to the owner or
looked up for a waiting call. -/
theorem hear_named {deviceId : List UInt8} (own : p.Of deviceId) {pack : Packet} (named : pack.deviceId ≠ [])
    (same : pack.deviceId = deviceId) :
    ∃ events, p.hear now pack = (⟨p.seqGenerator, deviceId, true, p.watch.receive now⟩, events ++ [pack.delivery]) ∧
      ∀ event ∈ events, event.handed = none := by
  subst same
  rcases Receiver.handle_cases ⟨p.seqGenerator, p.deviceId, []⟩ pack with
    ⟨nameless, _⟩ | ⟨_, _, handled⟩ | ⟨_, bound, handled⟩ | ⟨_, bound, other, _⟩
  · exact absurd nameless named
  · exact ⟨[.decoded pack, .gotDeviceId pack.deviceId, .refreshed], by simp [hear, handled], by simp⟩
  · exact ⟨[.decoded pack, .refreshed], by simpa [hear, handled] using bound, by simp⟩
  · exact absurd own (by simp [Of, bound, other])

end Endpoint

/-- A heartbeat of a device, or the answer to one. -/
def beat (deviceId : List UInt8) (rsp : Bool) (seq : UInt32) : Packet := ⟨heartbeatCmd, seq, rsp, 0, deviceId, .empty⟩

theorem buildReqPacket_beat (seqGenerator : UInt32) (deviceId : List UInt8) :
    buildReqPacket seqGenerator heartbeatCmd .empty deviceId =
      (beat deviceId false (nextSeq seqGenerator), nextSeq seqGenerator) := rfl

/-- Whatever the sequence number of the heartbeat, that of the answer is not
zero. -/
theorem heartbeatResponse_beat (seqGenerator : UInt32) {pack : Packet} (heartbeat : pack.cmd = heartbeatCmd) :
    ∃ seq ≠ 0, (heartbeatResponse seqGenerator pack).1 = beat pack.deviceId true seq := by
  rw [heartbeatResponse, buildRspPacket, heartbeat]
  by_cases zero : pack.seq = 0
  · refine ⟨nextSeq seqGenerator, nextSeq_ne_zero _, ?_⟩
    rw [Packet.construct, if_pos zero]
    rfl
  · refine ⟨pack.seq, zero, ?_⟩
    rw [Packet.construct_of_ne_zero zero]
    rfl

/-- The frame of a heartbeat or an answer. -/
def IsBeat (deviceId : List UInt8) (rsp : Bool) (bs : List UInt8) : Prop :=
  ∃ seq ≠ 0, encodePacket (beat deviceId rsp seq) = some bs

/-- The device ids with which a packet without a body comes back as it was:
`process_packet` passes over a packet without one, the encoder asserts that it
is short, and the frame has it as a C string. -/
structure Device (deviceId : List UInt8) : Prop where
  named : deviceId ≠ []
  short : deviceId.length < deviceIdSize
  nulFree : 0 ∉ deviceId

namespace Device
variable {deviceId : List UInt8} (device : Device deviceId) (rsp : Bool) {seq : UInt32} (fresh : seq ≠ 0)
include device

include fresh in
theorem sendable : (beat deviceId rsp seq).Sendable :=
  ⟨device.short, device.nulFree, fresh, by simp [beat]; decide⟩

include fresh in
theorem encodes : ∃ bs, encodePacket (beat deviceId rsp seq) = some bs ∧ IsBeat deviceId rsp bs := by
  have encoded := encodePacket_eq_some.mpr ⟨device.short, (device.sendable rsp fresh).fits, rfl⟩
  exact ⟨_, encoded, seq, fresh, encoded⟩

/-- Every frame of a heartbeat, and of an answer, sets `last_recv_time` of the
connection that reads it. -/
theorem read_beat {rsp : Bool} {bs : List UInt8} (frame : IsBeat deviceId rsp bs) {p : Endpoint} (live : p.live = true)
    (own : p.Of deviceId) (now : Nat) :
    ∃ seq events, p.read now bs =
        some (⟨p.seqGenerator, deviceId, true, p.watch.receive now⟩, events ++ [(beat deviceId rsp seq).delivery]) ∧
      ∀ event ∈ events, event.handed = none := by
  obtain ⟨seq, fresh, encoded⟩ := frame
  obtain ⟨_, _, rfl⟩ := encodePacket_eq_some.mp encoded
  have decoded := decodePacket_sendable p.seqGenerator (device.sendable rsp fresh) (by simp [beat]; decide) []
  rw [List.append_nil] at decoded
  have named : (beat deviceId rsp seq).deviceId ≠ [] := device.named
  obtain ⟨events, heard, quiet⟩ := Endpoint.hear_named now own named rfl
  refine ⟨seq, events, ?_, quiet⟩
  simp only [Endpoint.read, live, if_true, decoded]
  exact congrArg some heard

end Device
end Asyncmsg
