import Asyncmsg.OwnId
import Asyncmsg.PacketLink

namespace Asyncmsg
open Transition

def decodedOf (events : List Event) : List Packet :=
  events.filterMap fun | .decoded pack => some pack | _ => none

def requestsOf (events : List Event) : List Packet :=
  events.filterMap fun | .request _ pack => some pack | _ => none

theorem mem_requestsOf {events : List Event} {pack : Packet} :
    pack ∈ requestsOf events ↔ ∃ id, .request id pack ∈ events := by
  rw [requestsOf, List.mem_filterMap]
  constructor
  · rintro ⟨event, inside, found⟩
    cases event <;> cases found
    exact ⟨_, inside⟩
  · exact fun ⟨id, inside⟩ => ⟨_, inside, rfl⟩

/-- What a connection hands on it has decoded, a request or a device id has
come with a device id, and no request is handed on twice. -/
structure Honest (events : List Event) : Prop where
  request : ∀ id pack, .request id pack ∈ events →
    .decoded pack ∈ events ∧ pack.rsp = false ∧ pack.deviceId ≠ [] ∧ id = pack.deviceId
  response : ∀ pack, .response pack ∈ events → .decoded pack ∈ events ∧ pack.rsp = true
  named : ∀ id, .gotDeviceId id ∈ events → id ≠ [] ∧ ∃ pack, .decoded pack ∈ events ∧ pack.deviceId = id
  order : (requestsOf events).Sublist (decodedOf events)

theorem Honest.append {events more : List Event} (honest : Honest events) (honest' : Honest more) :
    Honest (events ++ more) where
  request id pack member := by
    rcases List.mem_append.mp member with old | new
    · exact (honest.request id pack old).imp_left (List.mem_append_left _)
    · exact (honest'.request id pack new).imp_left (List.mem_append_right _)
  response pack member := by
    rcases List.mem_append.mp member with old | new
    · exact (honest.response pack old).imp_left (List.mem_append_left _)
    · exact (honest'.response pack new).imp_left (List.mem_append_right _)
  named id member := by
    rcases List.mem_append.mp member with old | new
    · obtain ⟨named, pack, decoded, same⟩ := honest.named id old
      exact ⟨named, pack, List.mem_append_left _ decoded, same⟩
    · obtain ⟨named, pack, decoded, same⟩ := honest'.named id new
      exact ⟨named, pack, List.mem_append_right _ decoded, same⟩
  order := by
    rw [requestsOf, decodedOf, List.filterMap_append, List.filterMap_append]
    exact honest.order.append honest'.order

theorem Honest.nil : Honest [] := ⟨nofun, nofun, nofun, List.Sublist.refl _⟩

/-- One packet of a connection that has its device id, behind what cannot be a request. -/
theorem honest_delivery {pack : Packet} (named : pack.deviceId ≠ []) (front : List Event)
    (others : ∀ event ∈ front, event = .refreshed ∨ event = .gotDeviceId pack.deviceId) :
    Honest (.decoded pack :: front ++ [pack.delivery]) := by
  have cases' {event : Event} (member : event ∈ Event.decoded pack :: front ++ [pack.delivery]) :
      event = .decoded pack ∨ event = .refreshed ∨ event = .gotDeviceId pack.deviceId ∨ event = pack.delivery := by
    rw [List.cons_append, List.mem_cons, List.mem_append, List.mem_singleton] at member
    rcases member with same | inside | same
    · exact Or.inl same
    · exact Or.inr ((others event inside).imp_right Or.inl)
    · exact Or.inr (Or.inr (Or.inr same))
  have first : Event.decoded pack ∈ Event.decoded pack :: front ++ [pack.delivery] := List.mem_cons_self
  have quiet : requestsOf front = [] := List.filterMap_eq_nil_iff.mpr fun event inside => by
    rcases others event inside with rfl | rfl <;> rfl
  refine ⟨fun id other found => ?_, fun other found => ?_, fun id found => ?_, ?_⟩
  · rcases cases' found with same | same | same | same
    · cases same
    · cases same
    · cases same
    · unfold Packet.delivery at same
      split at same <;> cases same
      exact ⟨first, Bool.eq_false_iff.mpr ‹_›, named, rfl⟩
  · rcases cases' found with same | same | same | same
    · cases same
    · cases same
    · cases same
    · unfold Packet.delivery at same
      split at same <;> cases same
      exact ⟨first, ‹_›⟩
  · rcases cases' found with same | same | same | same
    · cases same
    · cases same
    · cases same
      exact ⟨named, pack, first, rfl⟩
    · unfold Packet.delivery at same
      split at same <;> cases same
  · have requests : requestsOf (.decoded pack :: front ++ [pack.delivery]) = requestsOf [pack.delivery] := by
      rw [List.cons_append, requestsOf, List.filterMap_cons_none rfl, List.filterMap_append, ← requestsOf, ← requestsOf,
        quiet, List.nil_append]
    have decoded : pack ∈ decodedOf (.decoded pack :: front ++ [pack.delivery]) := List.mem_filterMap.mpr ⟨_, first, rfl⟩
    rw [requests]
    unfold Packet.delivery at decoded ⊢
    split
    · exact List.nil_sublist _
    · rw [if_neg ‹_›] at decoded
      exact List.singleton_sublist.mpr decoded

namespace Reception
variable {r t : Reception}

/-- A connection that receives keeps the record of what it has done, and goes on honestly. -/
theorem Turn.honest {pack : Option Packet} (turn : Turn r pack t) :
    ∃ more, t.receiver.events = r.receiver.events ++ more ∧ Honest more := by
  cases turn with
  | quiet _ same => exact ⟨[], by rw [same, List.append_nil], .nil⟩
  | anonymous empty _ same => exact ⟨_, same, ⟨by simp, by simp, by simp, List.nil_sublist _⟩⟩
  | adopted named _ _ same => exact ⟨_, same, honest_delivery named [.gotDeviceId _, .refreshed] (by simp)⟩
  | own named _ _ same => exact ⟨_, same, honest_delivery named [.refreshed] (by simp)⟩
  | foreign _ _ _ _ same => exact ⟨_, same, ⟨by simp, by simp, by simp, List.nil_sublist _⟩⟩
  | failed _ same => exact ⟨_, same, ⟨by simp, by simp, by simp, List.nil_sublist _⟩⟩

theorem Reaches.honest (reaches : r.Reaches t) :
    ∃ more, t.receiver.events = r.receiver.events ++ more ∧ Honest more := by
  obtain ⟨inputs, run⟩ := reaches
  induction run with
  | nil => exact ⟨[], (List.append_nil _).symm, .nil⟩
  | snoc _ _ taken ih =>
    obtain ⟨first, grown, honest⟩ := ih
    obtain ⟨second, grown', honest'⟩ := (turn_of_step taken).2.honest
    exact ⟨first ++ second, by rw [grown', grown, List.append_assoc], honest.append honest'⟩

end Reception

namespace Link
variable {s t : Link}

def events (s : Link) : List Event := s.loop.conn.receiver.events

/-- The packets that the other side has decoded. -/
def decoded (s : Link) : List Packet := s.loop.conn.receiver.decodedPackets

theorem mem_decoded {pack : Packet} : pack ∈ s.decoded ↔ .decoded pack ∈ s.events := Receiver.mem_decodedPackets

/-- The end of a read leaves the sending side alone, and the record of the
other side grows. -/
theorem read_grows {a : Action} (reads : ∀ b, a ≠ .sender b) (taken : s.step a = some t) :
    t.sender = s.sender ∧ ∃ more, t.events = s.events ++ more ∧ Honest more := by
  cases a with
  | sender b => exact absurd rfl (reads b)
  | arrive n =>
    obtain ⟨slab, reading, done⟩ := Option.bind_eq_some_iff.mp taken
    obtain ⟨_, done⟩ := Option.ite_none_right_eq_some.mp done
    obtain ⟨loop, read, rfl⟩ := Option.map_eq_some_iff.mp done
    have completed : s.loop.complete (.done ((s.sender.wire.drop s.taken).take n)) = some loop := by
      simpa [ReceiveLoop.complete, ReceiveLoop.read] using read
    exact ⟨rfl, (ReceiveLoop.complete_reaches completed).honest⟩
  | lose result =>
    obtain ⟨slab, reading, done⟩ := Option.bind_eq_some_iff.mp taken
    have resumed : ∃ loop, s.loop.complete result = some loop ∧ t = { s with loop := loop } := by
      rw [ReceiveLoop.complete, reading]
      cases result with
      | done => cases done
      | expired =>
        cases done
        exact ⟨_, rfl, rfl⟩
      | failed =>
        cases done
        exact ⟨_, rfl, rfl⟩
    obtain ⟨loop, completed, rfl⟩ := resumed
    exact ⟨rfl, (ReceiveLoop.complete_reaches completed).honest⟩

theorem start_events {seqGenerator : UInt32} (started : start seqGenerator = some s) : Honest s.events := by
  obtain ⟨loop, first, rfl⟩ := Option.map_eq_some_iff.mp started
  obtain ⟨more, grown, honest⟩ := (ReceiveLoop.start_reaches first).honest
  have events : loop.conn.receiver.events = more := grown
  change Honest loop.conn.receiver.events
  rw [events]
  exact honest

section Delivers
variable {common : List UInt8} {seqGenerator : UInt32}

/-- What the other side has decoded has been sent. -/
theorem Delivers.sent (short : common.length < deviceIdSize) (nulFree : 0 ∉ common)
    (delivers : s.Delivers common seqGenerator) {pack : Packet} (member : pack ∈ s.decoded) :
    ∃ (i : Nat) (call : Call), s.sender.calls[i]? = some call ∧ call.pack = pack := by
  obtain ⟨order, intact⟩ := delivers.intact
  obtain ⟨count, _, same⟩ := delivers.decoded short nulFree intact
  rw [Link.decoded, same] at member
  obtain ⟨call, inside, rfl⟩ := List.mem_map.mp (List.mem_of_mem_take member)
  obtain ⟨i, _, found⟩ := List.mem_filterMap.mp inside
  exact ⟨i, call, found, rfl⟩

/-- Requests that are sent once are handed on once. -/
theorem Delivers.requests_nodup (short : common.length < deviceIdSize) (nulFree : 0 ∉ common)
    (delivers : s.Delivers common seqGenerator) (honest : Honest s.events)
    (apart : ∀ (i j : Nat) (first second : Call), s.sender.calls[i]? = some first → s.sender.calls[j]? = some second →
      first.pack.rsp = false → first.pack = second.pack → i = j) : (requestsOf s.events).Nodup := by
  obtain ⟨order, intact⟩ := delivers.intact
  obtain ⟨count, _, same⟩ := delivers.decoded short nulFree intact
  have sent : (decodedOf s.events).Sublist ((s.sender.callsAt order).map Call.pack) := by
    change s.loop.conn.receiver.decodedPackets.Sublist _
    rw [same]
    exact List.take_sublist _ _
  have requests : requestsOf s.events = (requestsOf s.events).filter fun pack => !pack.rsp := by
    refine (List.filter_eq_self.mpr fun pack member => ?_).symm
    obtain ⟨id, inside⟩ := mem_requestsOf.mp member
    simp [(honest.request id pack inside).2.1]
  rw [requests]
  refine ((honest.order.trans sent).filter _).nodup ?_
  rw [List.Nodup, List.pairwise_filter, List.pairwise_map, Sender.callsAt, List.pairwise_filterMap]
  refine intact.nodup.imp fun different first found second found' request _ equal => different ?_
  exact apart _ _ first second found found' (by simpa using request) equal

end Delivers

end Link
end Asyncmsg
