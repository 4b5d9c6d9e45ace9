import Asyncmsg.Binding
import Asyncmsg.ClientDelivery

namespace Asyncmsg
open Transition

/-- The constructor, with `device_id_(std::move(device_id_))` among its
initialisers: the member is moved from itself, which leaves it empty, and
nothing reads the parameter. -/
def Connection.construct (seqGenerator : UInt32) (_deviceId : List UInt8) : Connection :=
  let deviceId : List UInt8 := []
  ⟨⟨seqGenerator, deviceId, []⟩, .ofSize recvBufSize⟩

/-- The connection of a client is bound to the client's own device id: it hands
on packets of this id only, ends with the first one of another, and the client
acknowledges every request for this id. -/
structure Receiver.OwnBound (deviceId : List UInt8) (r : Receiver) : Prop where
  delivered : ∀ event ∈ r.events, ∀ pack ∈ event.handed, pack.deviceId = deviceId
  refused : ∀ pack, .decoded pack ∈ r.events → pack.deviceId ≠ [] → pack.deviceId ≠ deviceId →
    ∃ before id, r.events = before ++ [.decoded pack, .disconnected id]
  acknowledged : ∀ id pack, .request id pack ∈ r.events → ∀ (c : Client) (i : Nat),
    ∃ ack, (c.onReceiveRequest i pack id).acks = c.acks ++ [ack] ∧ ack.rsp.deviceId = deviceId

namespace Reception
variable {r : Reception}

theorem Binds.ownBound_iff (binds : r.Binds) (deviceId : List UInt8) :
    r.receiver.OwnBound deviceId ↔ ∀ pack ∈ firstNamed r.receiver.decodedPackets, pack.deviceId = deviceId := by
  constructor
  · intro bound pack found
    rcases binds.first with ⟨_, none⟩ | ⟨_, other, found', _, delivered⟩
    · cases none.symm.trans found
    · cases found'.symm.trans found
      exact bound.delivered _ delivered pack (handed_delivery pack)
  · intro condition
    rcases binds.first with ⟨unnamed, _⟩ | ⟨named, first, found, own, _⟩
    · have silent : ∀ event ∈ r.receiver.events, event.handed = none := fun event member => by
        rcases binds.unannounced unnamed event member with ⟨_, rfl, _⟩ | rfl <;> rfl
      refine ⟨fun event member pack handed => ?_, fun pack member named' => ?_, fun id pack member => ?_⟩
      · cases (silent event member).symm.trans handed
      · rcases binds.unannounced unnamed _ member with ⟨_, same, empty⟩ | last
        · cases same
          exact absurd empty named'
        · cases last
      · cases silent _ member
    · have same : r.receiver.deviceId = deviceId := own.symm.trans (condition first found)
      refine ⟨fun event member pack handed => ?_, fun pack member named' apart => ?_, fun id pack member c i => ?_⟩
      · exact (binds.carried event member pack handed).2.trans same
      · obtain ⟨before, last, _⟩ := binds.refused pack member named' (same ▸ apart)
        exact ⟨before, _, last⟩
      · obtain ⟨delivered, carried⟩ := binds.carried _ member pack rfl
        have key : id = pack.deviceId := by
          unfold Packet.delivery at delivered
          split at delivered <;> cases delivered
          rfl
        refine ⟨_, c.onReceiveRequest_acks_eq i pack id, ?_⟩
        exact (Packet.construct_deviceId_body _ _ _ _ _ _ _).1.trans (key.trans (carried.trans same))

end Reception

/-- A connection constructed for a device id is bound to this id, whatever
packets the decoder yields, exactly if the first of them with any device id
carries it, or none has one; and whatever arrives in whatever reads, the
connection goes by the packets that are decoded from it. -/
theorem construct_bound_iff (seqGenerator : UInt32) (deviceId : List UInt8) :
    (∀ inputs r, Run Reception.step free ⟨(Connection.construct seqGenerator deviceId).receiver, true⟩ inputs r →
      (r.receiver.OwnBound deviceId ↔
        ∀ pack ∈ firstNamed (inputs.filterMap Reception.Input.decoded), pack.deviceId = deviceId)) ∧
    ∀ first results l, (Connection.construct seqGenerator deviceId).loopHead = some first →
      first.completeAll results = some l →
      ∃ inputs, Run Reception.step free ⟨(Connection.construct seqGenerator deviceId).receiver, true⟩ inputs
          l.reception ∧
        l.conn.receiver.decodedPackets = inputs.filterMap Reception.Input.decoded := by
  refine ⟨fun inputs r run => ?_, fun first results l started rest => ?_⟩
  · have reaches : (Reception.start seqGenerator).Reaches r := ⟨inputs, run⟩
    have decoded : r.receiver.decodedPackets = inputs.filterMap Reception.Input.decoded :=
      Reception.decodedPackets_of_run run
    rw [← decoded]
    exact reaches.binds.ownBound_iff deviceId
  · obtain ⟨inputs, run⟩ := (ReceiveLoop.loopHead_reaches started).trans (ReceiveLoop.completeAll_reaches rest)
    exact ⟨inputs, run, Reception.decodedPackets_of_run run⟩

/-- The ping arrives on a connection constructed for any device id. -/
theorem construct_receives_ping (deviceId : List UInt8) :
    ∃ stream first l, encodeStream [ping] = some stream ∧
      (Connection.construct 0 deviceId).loopHead = some first ∧ first.completeAll [.done stream] = some l ∧
      l.conn.receiver.decodedPackets = [ping] := by
  have legal : ∀ pack ∈ [ping], pack.Deliverable [0x61] := by
    intro pack member
    cases List.mem_singleton.mp member
    exact ⟨by decide, by decide, Or.inr rfl⟩
  have length : (encodeStream [ping]).map List.length = some 88 := by decide +kernel
  obtain ⟨stream, encoded, size⟩ := Option.map_eq_some_iff.mp length
  have cut : [stream].flatten = stream := List.flatten_singleton
  obtain ⟨first, l, started, run, _, decoded⟩ := start_receives (by decide) (by decide) legal
    (encoded.trans (congrArg some cut.symm)) (by rw [cut, size]; decide)
  exact ⟨stream, first, l, encoded, started, run, decoded⟩

/-- A server that sends under another device id than the client's own. -/
theorem construct_foreign :
    ¬∀ seqGenerator deviceId first results l, deviceId ≠ [] →
      (Connection.construct seqGenerator deviceId).loopHead = some first → first.completeAll results = some l →
      l.conn.receiver.OwnBound deviceId := by
  intro claim
  obtain ⟨stream, first, l, _, started, run, decoded⟩ := construct_receives_ping [0x62]
  have bound := claim 0 [0x62] first _ l (by decide) started run
  have reached : (Reception.start 0).Reaches l.reception :=
    (ReceiveLoop.loopHead_reaches started).trans (ReceiveLoop.completeAll_reaches run)
  have named : firstNamed l.conn.receiver.decodedPackets = some ping := by
    rw [decoded]
    rfl
  rcases reached.binds.first with ⟨_, none⟩ | ⟨_, pack, found, _, delivered⟩
  · cases none.symm.trans named
  · cases found.symm.trans named
    have carried := bound.delivered _ delivered ping (Reception.handed_delivery ping)
    exact absurd carried (by decide)

end Asyncmsg
