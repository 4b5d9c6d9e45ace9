import Asyncmsg.Decodes
import Asyncmsg.Reception
import Mathlib.Data.List.Chain

namespace Asyncmsg
open Transition

/-- How a packet leaves a connection that has its device id. -/
def Packet.delivery (pack : Packet) : Event := if pack.rsp then .response pack else .request pack.deviceId pack

/-- A packet without a device id is passed over; a first one with an id is adopted,
one with the connection's own id delivered, and one with another id refused. -/
theorem Receiver.handle_cases (r : Receiver) (pack : Packet) :
    pack.deviceId = [] ∧ r.handle pack = (r.emit (.decoded pack), true) ∨
      pack.deviceId ≠ [] ∧ r.deviceId = [] ∧
        r.handle pack = (⟨r.seqGenerator, pack.deviceId,
          r.events ++ [.decoded pack, .gotDeviceId pack.deviceId, .refreshed, pack.delivery]⟩, true) ∨
      pack.deviceId ≠ [] ∧ r.deviceId = pack.deviceId ∧
        r.handle pack = (⟨r.seqGenerator, r.deviceId,
          r.events ++ [.decoded pack, .refreshed, pack.delivery]⟩, true) ∨
      pack.deviceId ≠ [] ∧ r.deviceId ≠ [] ∧ r.deviceId ≠ pack.deviceId ∧
        r.handle pack = (r.emit (.decoded pack), false) := by
  rcases r with ⟨seqGenerator, deviceId, events⟩
  by_cases anonymous : pack.deviceId = []
  · left
    simp [handle, anonymous]
  · by_cases first : deviceId = []
    · right; left
      refine ⟨anonymous, first, ?_⟩
      cases rsp : pack.rsp <;> simp [handle, deliver, emit, Packet.delivery, anonymous, first, rsp]
    · by_cases same : deviceId = pack.deviceId
      · right; right; left
        refine ⟨anonymous, same, ?_⟩
        cases rsp : pack.rsp <;> simp [handle, deliver, emit, Packet.delivery, anonymous, same, rsp]
      · right; right; right
        exact ⟨anonymous, first, same, by simp [handle, emit, anonymous, first, same]⟩

/-- The packet that the decoder yields. -/
def Reception.Input.decoded : Reception.Input → Option Packet
  | .packet _ pack => some pack
  | _ => none

/-- The first packet with a device id. -/
def firstNamed (packs : List Packet) : Option Packet := packs.find? fun pack => pack.deviceId ≠ []

theorem Receiver.mem_decodedPackets {r : Receiver} {pack : Packet} :
    pack ∈ r.decodedPackets ↔ .decoded pack ∈ r.events := by
  simp only [decodedPackets, List.mem_filterMap]
  constructor
  · rintro ⟨event, member, found⟩
    cases event <;> cases found
    exact member
  · exact fun member => ⟨_, member, rfl⟩

theorem Receiver.announcedIds_eq_nil {r : Receiver} (silent : ∀ id, .gotDeviceId id ∉ r.events) :
    r.announcedIds = [] :=
  List.filterMap_eq_nil_iff.mpr fun event member => by
    cases event with
    | gotDeviceId id => exact absurd member (silent id)
    | _ => rfl

namespace Reception
variable {r t : Reception}

/-- What one input does to a connection that reads, by the packet that the
decoder has yielded. -/
inductive Turn (r : Reception) : Option Packet → Reception → Prop
  | quiet {t : Reception} : t.receiver.deviceId = r.receiver.deviceId → t.receiver.events = r.receiver.events →
      Turn r none t
  | anonymous {t : Reception} {pack : Packet} : pack.deviceId = [] → t.receiver.deviceId = r.receiver.deviceId →
      t.receiver.events = r.receiver.events ++ [.decoded pack] → Turn r (some pack) t
  | adopted {t : Reception} {pack : Packet} : pack.deviceId ≠ [] → r.receiver.deviceId = [] →
      t.receiver.deviceId = pack.deviceId →
      t.receiver.events =
        r.receiver.events ++ [.decoded pack, .gotDeviceId pack.deviceId, .refreshed, pack.delivery] →
      Turn r (some pack) t
  | own {t : Reception} {pack : Packet} : pack.deviceId ≠ [] → r.receiver.deviceId = pack.deviceId →
      t.receiver.deviceId = r.receiver.deviceId →
      t.receiver.events = r.receiver.events ++ [.decoded pack, .refreshed, pack.delivery] → Turn r (some pack) t
  | foreign {t : Reception} {pack : Packet} : pack.deviceId ≠ [] → r.receiver.deviceId ≠ [] →
      r.receiver.deviceId ≠ pack.deviceId → t.receiver.deviceId = r.receiver.deviceId →
      t.receiver.events = r.receiver.events ++ [.decoded pack, .disconnected r.receiver.deviceId] →
      t.reading = false → Turn r (some pack) t
  | failed {t : Reception} : t.receiver.deviceId = r.receiver.deviceId →
      t.receiver.events = r.receiver.events ++ [.disconnected r.receiver.deviceId] → t.reading = false →
      Turn r none t

theorem turn_of_step {input : Input} (taken : r.step input = some t) : r.reading = true ∧ Turn r input.decoded t := by
  obtain ⟨reading, taken⟩ := Option.ite_none_right_eq_some.mp taken
  refine ⟨reading, ?_⟩
  cases input with
  | packet seqGenerator pack =>
    dsimp only at taken
    rcases Receiver.handle_cases ⟨seqGenerator, r.receiver.deviceId, r.receiver.events⟩ pack with
      ⟨empty, handled⟩ | ⟨named, first, handled⟩ | ⟨named, same, handled⟩ | ⟨named, bound, other, handled⟩ <;>
      rw [handled] at taken <;> cases taken
    · exact .anonymous empty rfl rfl
    · exact .adopted named first rfl rfl
    · exact .own named same rfl rfl
    · exact .foreign named bound other rfl (by simp [Receiver.disconnect, Receiver.emit]) rfl
  | nothing seqGenerator =>
    cases taken
    exact .quiet rfl rfl
  | failed =>
    cases taken
    exact .failed rfl rfl rfl
  | expired =>
    cases taken
    exact .quiet rfl rfl

end Reception

namespace Event

/-- The decoding of a packet without a device id. -/
def Anonymous (event : Event) : Prop := ∃ pack, event = .decoded pack ∧ pack.deviceId = []

/-- The next decoding, or the end. -/
@[simp] def Opens : Event → Prop
  | .decoded _ | .disconnected _ => True
  | _ => False

/-- The packet that is handed to the owner or looked up for a waiting call. -/
def handed : Event → Option Packet
  | .request _ pack | .response pack => some pack
  | _ => none

@[simp] theorem handed_decoded (pack : Packet) : (decoded pack).handed = none := rfl
@[simp] theorem handed_gotDeviceId (id : List UInt8) : (gotDeviceId id).handed = none := rfl
@[simp] theorem handed_refreshed : refreshed.handed = none := rfl
@[simp] theorem handed_disconnected (id : List UInt8) : (disconnected id).handed = none := rfl

end Event

namespace Reception
variable {r t : Reception}

/-- A connection is bound to the device id that it has announced. -/
structure Binds (r : Reception) : Prop where
  unannounced : r.receiver.deviceId = [] → ∀ event ∈ r.receiver.events, event.Anonymous ∨ event = .disconnected []
  announced : r.receiver.deviceId ≠ [] → ∃ front pack back,
    r.receiver.events =
      front ++ .decoded pack :: .gotDeviceId pack.deviceId :: .refreshed :: pack.delivery :: back ∧
    pack.deviceId = r.receiver.deviceId ∧ (∀ event ∈ front, event.Anonymous) ∧ ∀ id, .gotDeviceId id ∉ back
  carried : ∀ event ∈ r.receiver.events, ∀ pack ∈ event.handed,
    event = pack.delivery ∧ pack.deviceId = r.receiver.deviceId
  silent : r.receiver.events.IsChain fun event next => event.Anonymous → next.Opens
  refused : ∀ pack, .decoded pack ∈ r.receiver.events → pack.deviceId ≠ [] → pack.deviceId ≠ r.receiver.deviceId →
    ∃ before, r.receiver.events = before ++ [.decoded pack, .disconnected r.receiver.deviceId] ∧
      ∀ other, .decoded other ∈ before → other.deviceId = [] ∨ other.deviceId = r.receiver.deviceId
  ended : ∀ id, .disconnected id ∈ r.receiver.events → r.reading = false ∧ id = r.receiver.deviceId ∧
    ∃ before, r.receiver.events = before ++ [.disconnected id] ∧ ∀ key, .disconnected key ∉ before

theorem start_binds (seqGenerator : UInt32) : (start seqGenerator).Binds where
  unannounced _ _ member := by cases member
  announced named := absurd rfl named
  carried _ member := by cases member
  silent := .nil
  refused _ member := by cases member
  ended _ member := by cases member

theorem Binds.open (binds : r.Binds) (reading : r.reading = true) (id : List UInt8) :
    .disconnected id ∉ r.receiver.events := fun member => by
  cases reading.symm.trans (binds.ended id member).1

/-- A connection that still reads has decoded no packet of another device. -/
theorem Binds.known (binds : r.Binds) (reading : r.reading = true) {pack : Packet}
    (member : .decoded pack ∈ r.receiver.events) : pack.deviceId = [] ∨ pack.deviceId = r.receiver.deviceId := by
  by_contra other
  obtain ⟨named, apart⟩ := not_or.mp other
  obtain ⟨before, same, _⟩ := binds.refused pack member named apart
  exact binds.open reading r.receiver.deviceId (by simp [same])

theorem Binds.anonymous (binds : r.Binds) (reading : r.reading = true) (first : r.receiver.deviceId = []) :
    ∀ event ∈ r.receiver.events, event.Anonymous := fun event member =>
  (binds.unannounced first event member).resolve_right fun last => binds.open reading [] (last ▸ member)

@[simp] theorem handed_delivery (pack : Packet) : pack.delivery.handed = some pack := by
  unfold Packet.delivery
  split <;> rfl

/-- A delivery is none of the other events. -/
@[simp] theorem decoded_ne_delivery (pack other : Packet) : .decoded other ≠ pack.delivery := by
  unfold Packet.delivery
  split <;> simp

@[simp] theorem gotDeviceId_ne_delivery (pack : Packet) (id : List UInt8) : .gotDeviceId id ≠ pack.delivery := by
  unfold Packet.delivery
  split <;> simp

@[simp] theorem disconnected_ne_delivery (pack : Packet) (id : List UInt8) : .disconnected id ≠ pack.delivery := by
  unfold Packet.delivery
  split <;> simp

/-- What a round of a connection that stays bound as it is may add. -/
structure Round (deviceId : List UInt8) (reading : Bool) (new : List Event) : Prop where
  unannounced : deviceId = [] → ∀ event ∈ new, event.Anonymous ∨ event = .disconnected []
  quiet : ∀ id, .gotDeviceId id ∉ new
  carried : ∀ event ∈ new, ∀ pack ∈ event.handed, event = pack.delivery ∧ pack.deviceId = deviceId
  silent : new.IsChain fun event next => event.Anonymous → next.Opens
  opens : ∀ event ∈ new.head?, event.Opens
  refused : ∀ pack, .decoded pack ∈ new → pack.deviceId = [] ∨ pack.deviceId = deviceId ∨
    new = [.decoded pack, .disconnected deviceId]
  ended : ∀ id, .disconnected id ∈ new → reading = false ∧ id = deviceId ∧
    ∃ before, new = before ++ [.disconnected id] ∧ ∀ key, .disconnected key ∉ before

theorem Binds.append (binds : r.Binds) (reading : r.reading = true) {new : List Event}
    (same : t.receiver.deviceId = r.receiver.deviceId) (events : t.receiver.events = r.receiver.events ++ new)
    (round : Round r.receiver.deviceId t.reading new) : t.Binds where
  unannounced first event member := by
    rw [same] at first
    rcases List.mem_append.mp (events ▸ member) with old | added
    · exact binds.unannounced first event old
    · exact round.unannounced first event added
  announced named := by
    rw [same] at named ⊢
    obtain ⟨front, pack, back, split, own, anonymous, once⟩ := binds.announced named
    refine ⟨front, pack, back ++ new, by rw [events, split]; simp, own, anonymous, fun id member => ?_⟩
    exact (List.mem_append.mp member).elim (once id) (round.quiet id)
  carried event member pack handed := by
    rw [same]
    rcases List.mem_append.mp (events ▸ member) with old | added
    · exact binds.carried event old pack handed
    · exact round.carried event added pack handed
  silent := by
    rw [events, List.isChain_append]
    exact ⟨binds.silent, round.silent, fun _ _ next head _ => round.opens next head⟩
  refused pack member named apart := by
    rw [same] at apart ⊢
    rcases List.mem_append.mp (events ▸ member) with old | added
    · exact ((binds.known reading old).elim named apart).elim
    · rcases round.refused pack added with empty | own | last
      · exact absurd empty named
      · exact absurd own apart
      · exact ⟨r.receiver.events, by rw [events, last], fun other before => binds.known reading before⟩
  ended id member := by
    rw [same]
    rcases List.mem_append.mp (events ▸ member) with old | added
    · exact absurd old (binds.open reading id)
    · obtain ⟨closed, own, before, last, none⟩ := round.ended id added
      refine ⟨closed, own, r.receiver.events ++ before, by rw [events, last, List.append_assoc], fun key member => ?_⟩
      exact (List.mem_append.mp member).elim (binds.open reading key) (none key)

theorem Binds.adopt (binds : r.Binds) (reading : r.reading = true) {pack : Packet} (named : pack.deviceId ≠ [])
    (first : r.receiver.deviceId = []) (own : t.receiver.deviceId = pack.deviceId)
    (events : t.receiver.events =
      r.receiver.events ++ [.decoded pack, .gotDeviceId pack.deviceId, .refreshed, pack.delivery]) : t.Binds := by
  have anonymous := binds.anonymous reading first
  constructor
  · intro unnamed
    exact absurd (own.symm.trans unnamed) named
  · intro _
    exact ⟨r.receiver.events, pack, [], events, own.symm, anonymous, by simp⟩
  · intro event member other handed
    rw [own]
    rcases List.mem_append.mp (events ▸ member) with old | added
    · obtain ⟨_, rfl, _⟩ := anonymous event old
      cases handed
    · simp only [List.mem_cons, List.not_mem_nil, or_false] at added
      rcases added with rfl | rfl | rfl | rfl <;> simp at handed
      exact ⟨congrArg _ handed, congrArg _ handed.symm⟩
  · rw [events, List.isChain_append]
    refine ⟨binds.silent, ?_, by simp⟩
    simp [Event.Anonymous, named]
  · intro other member named' apart
    rw [own] at apart
    rcases List.mem_append.mp (events ▸ member) with old | added
    · obtain ⟨_, same, empty⟩ := anonymous _ old
      cases same
      exact absurd empty named'
    · simp only [List.mem_cons, reduceCtorEq, decoded_ne_delivery, List.not_mem_nil, or_false] at added
      cases added
      exact absurd rfl apart
  · intro id member
    rcases List.mem_append.mp (events ▸ member) with old | added
    · exact absurd old (binds.open reading id)
    · simp at added

theorem Binds.turn (binds : r.Binds) (reading : r.reading = true) {decoded : Option Packet}
    (turn : Turn r decoded t) : t.Binds := by
  cases turn with
  | quiet same events =>
    refine binds.append reading same (events.trans (List.append_nil _).symm) ?_
    constructor <;> simp
  | @anonymous _ pack empty same events =>
    refine binds.append reading same events ?_
    constructor <;> simp_all [Event.Anonymous]
  | @own _ pack named own same events =>
    refine binds.append reading same events ?_
    constructor <;> simp_all [Event.Anonymous]
  | @foreign _ pack named bound other same events closed =>
    refine binds.append reading same events ?_
    constructor
    case ended =>
      intro id member
      obtain rfl : id = r.receiver.deviceId := by simpa using member
      exact ⟨closed, rfl, [.decoded pack], rfl, by simp⟩
    all_goals simp_all [Event.Anonymous]
  | failed same events closed =>
    refine binds.append reading same events ?_
    constructor <;> simp_all [Event.Anonymous]
  | adopted named first own events => exact binds.adopt reading named first own events

/-- Whatever the decoder yields, a connection stays bound to the device id that
it announces first. -/
theorem Reaches.binds {seqGenerator : UInt32} (reaches : (start seqGenerator).Reaches r) : r.Binds := by
  obtain ⟨inputs, run⟩ := reaches
  refine run.invariant (start_binds seqGenerator) fun _ _ _ binds _ taken => ?_
  obtain ⟨reading, turn⟩ := turn_of_step taken
  exact binds.turn reading turn

/-- The device id never changes again. -/
theorem Reaches.deviceId (reaches : r.Reaches t) (named : r.receiver.deviceId ≠ []) :
    t.receiver.deviceId = r.receiver.deviceId := by
  obtain ⟨inputs, run⟩ := reaches
  refine run.invariant (I := fun t => t.receiver.deviceId = r.receiver.deviceId) rfl fun s _ t kept _ taken => ?_
  rw [← kept] at named ⊢
  have turn := (turn_of_step taken).2
  generalize Input.decoded _ = decoded at turn
  cases turn with
  | adopted _ first => exact absurd first named
  | quiet same => exact same
  | anonymous _ same => exact same
  | own _ _ same => exact same
  | foreign _ _ _ same => exact same
  | failed same => exact same

theorem decodedPackets_of_step {input : Input} (taken : r.step input = some t) :
    t.receiver.decodedPackets = r.receiver.decodedPackets ++ input.decoded.toList := by
  have same : r.receiver.decodedPackets = r.receiver.decodedPackets ++ [] := (List.append_nil _).symm
  obtain ⟨_, taken⟩ := Option.ite_none_right_eq_some.mp taken
  cases input with
  | packet seqGenerator pack =>
    have handled := Receiver.decodedPackets_handle ⟨seqGenerator, r.receiver.deviceId, r.receiver.events⟩ pack
    dsimp only at taken
    generalize (⟨seqGenerator, r.receiver.deviceId, r.receiver.events⟩ : Receiver).handle pack = result
      at taken handled
    obtain ⟨receiver, live⟩ := result
    cases taken
    cases live with
    | true => exact handled
    | false => exact (Receiver.decodedPackets_disconnect receiver).trans handled
  | nothing =>
    cases taken
    exact same
  | failed =>
    cases taken
    exact (Receiver.decodedPackets_disconnect _).trans same
  | expired =>
    cases taken
    exact same

/-- A connection decodes what the decoder yields, and nothing else. -/
theorem decodedPackets_of_run {inputs : List Input} (run : Run step free r inputs t) :
    t.receiver.decodedPackets = r.receiver.decodedPackets ++ inputs.filterMap Input.decoded := by
  induction run with
  | nil => exact (List.append_nil _).symm
  | @snoc inputs s input t _ _ taken ih =>
    have last : [input].filterMap Input.decoded = input.decoded.toList := by
      cases decoded : input.decoded <;> simp [decoded]
    rw [decodedPackets_of_step taken, ih, List.filterMap_append, List.append_assoc, last]

/-- The first device id that is decoded is the one that the connection is bound
to, and its packet is delivered. -/
theorem Binds.first (binds : r.Binds) :
    r.receiver.deviceId = [] ∧ firstNamed r.receiver.decodedPackets = none ∨
      r.receiver.deviceId ≠ [] ∧ ∃ pack, firstNamed r.receiver.decodedPackets = some pack ∧
        pack.deviceId = r.receiver.deviceId ∧ pack.delivery ∈ r.receiver.events := by
  by_cases unnamed : r.receiver.deviceId = []
  · left
    refine ⟨unnamed, List.find?_eq_none.mpr fun pack member => ?_⟩
    rcases binds.unannounced unnamed _ (Receiver.mem_decodedPackets.mp member) with ⟨_, same, empty⟩ | last
    · cases same
      simp [empty]
    · cases last
  · right
    obtain ⟨front, pack, back, events, own, anonymous, _⟩ := binds.announced unnamed
    refine ⟨unnamed, pack, ?_, own, by simp [events]⟩
    have named : pack.deviceId ≠ [] := own ▸ unnamed
    have before : firstNamed (⟨0, [], front⟩ : Receiver).decodedPackets = none := by
      refine List.find?_eq_none.mpr fun other member => ?_
      obtain ⟨_, same, empty⟩ := anonymous _ (Receiver.mem_decodedPackets.mp member)
      cases same
      simp [empty]
    rw [firstNamed, Receiver.decodedPackets] at before ⊢
    rw [events, List.filterMap_append, List.find?_append, before]
    simp [named]

/-- The packets of one device. -/
def packetsOf (deviceId : List UInt8) (packs : List Packet) : List Packet :=
  packs.filter fun pack => pack.deviceId ≠ [] ∧ pack.deviceId = deviceId

theorem packetsOf_append (deviceId : List UInt8) (packs more : List Packet) :
    packetsOf deviceId (packs ++ more) = packetsOf deviceId packs ++ packetsOf deviceId more :=
  List.filter_append ..

theorem packetsOf_eq_nil {deviceId : List UInt8} {packs : List Packet}
    (others : ∀ pack ∈ packs, pack.deviceId ≠ [] → pack.deviceId ≠ deviceId) : packetsOf deviceId packs = [] :=
  List.filter_eq_nil_iff.mpr fun pack member own => by
    obtain ⟨named, same⟩ := of_decide_eq_true own
    exact others pack member named same

theorem packetsOf_own {deviceId : List UInt8} {pack : Packet} (named : pack.deviceId ≠ []) (own : pack.deviceId = deviceId) :
    packetsOf deviceId [pack] = [pack] :=
  List.filter_eq_self.mpr fun other member => by
    rw [List.mem_singleton.mp member]
    exact decide_eq_true ⟨named, own⟩

/-- A connection hands on every packet of its device, and puts the clock of its
last reception forward for each. -/
structure Hands (r : Reception) : Prop where
  accepted : r.receiver.acceptedPackets = packetsOf r.receiver.deviceId r.receiver.decodedPackets
  refreshes : r.receiver.events.count .refreshed = (packetsOf r.receiver.deviceId r.receiver.decodedPackets).length

theorem start_hands (seqGenerator : UInt32) : (start seqGenerator).Hands := ⟨rfl, rfl⟩

/-- What a round adds to the packets accepted and to the refreshes it must add to the packets of the device. -/
theorem Hands.append (hands : r.Hands) {new : List Event} {packs : List Packet}
    (same : packetsOf t.receiver.deviceId r.receiver.decodedPackets =
      packetsOf r.receiver.deviceId r.receiver.decodedPackets)
    (events : t.receiver.events = r.receiver.events ++ new)
    (decoded : t.receiver.decodedPackets = r.receiver.decodedPackets ++ packs)
    (accepted : (⟨0, [], new⟩ : Receiver).acceptedPackets = packetsOf t.receiver.deviceId packs)
    (refreshes : new.count .refreshed = (packetsOf t.receiver.deviceId packs).length) : t.Hands where
  accepted := by
    rw [decoded, packetsOf_append, same, ← accepted, ← hands.accepted, Receiver.acceptedPackets, events]
    exact List.filterMap_append
  refreshes := by
    rw [decoded, packetsOf_append, same, List.length_append, ← refreshes, ← hands.refreshes, events, List.count_append]

theorem acceptedPackets_delivery (pack : Packet) (new : List Event) :
    (⟨0, [], new ++ [pack.delivery]⟩ : Receiver).acceptedPackets =
      (⟨0, [], new⟩ : Receiver).acceptedPackets ++ [pack] := by
  unfold Packet.delivery Receiver.acceptedPackets
  split <;> simp

@[simp] theorem refreshed_ne_delivery (pack : Packet) : pack.delivery ≠ .refreshed := by
  unfold Packet.delivery
  split <;> simp

theorem Hands.turn (hands : r.Hands) (binds : r.Binds) (reading : r.reading = true) {pack : Option Packet}
    (turn : Turn r pack t) (decoded : t.receiver.decodedPackets = r.receiver.decodedPackets ++ pack.toList) :
    t.Hands := by
  cases turn with
  | quiet same events =>
    exact hands.append (by rw [same]) (events.trans (List.append_nil _).symm) decoded rfl rfl
  | @anonymous _ pack empty same events =>
    have none : packetsOf t.receiver.deviceId [pack] = [] := packetsOf_eq_nil (by simp [empty])
    exact hands.append (by rw [same]) events decoded none.symm (by rw [Option.toList_some, none]; rfl)
  | @adopted _ pack named first own events =>
    have anonymous : ∀ other ∈ r.receiver.decodedPackets, other.deviceId = [] := fun other member => by
      obtain ⟨_, same, empty⟩ := binds.anonymous reading first _ (Receiver.mem_decodedPackets.mp member)
      cases same
      exact empty
    have before (id : List UInt8) : packetsOf id r.receiver.decodedPackets = [] :=
      packetsOf_eq_nil fun other member named' => absurd (anonymous other member) named'
    have one : packetsOf t.receiver.deviceId [pack] = [pack] := packetsOf_own named own.symm
    refine hands.append ((before _).trans (before _).symm) events decoded ?_ ?_
    · exact (acceptedPackets_delivery pack [.decoded pack, .gotDeviceId pack.deviceId, .refreshed]).trans one.symm
    · simp [one]
  | @own _ pack named own same events =>
    have one : packetsOf t.receiver.deviceId [pack] = [pack] := packetsOf_own named (own.symm.trans same.symm)
    refine hands.append (by rw [same]) events decoded ?_ ?_
    · exact (acceptedPackets_delivery pack [.decoded pack, .refreshed]).trans one.symm
    · simp [one]
  | @foreign _ pack named bound other same events closed =>
    have none : packetsOf t.receiver.deviceId [pack] = [] := packetsOf_eq_nil (by simp [same, Ne.symm other])
    exact hands.append (by rw [same]) events decoded none.symm (by rw [Option.toList_some, none]; rfl)
  | failed same events closed => exact hands.append (by rw [same]) events decoded rfl rfl

/-- What the packets decoded on a connection have done to it, and that it is
bound as it should be for good. -/
structure Settled (packs : List Packet) (r : Reception) : Prop extends r.Binds where
  decoded : r.receiver.decodedPackets = packs
  named : r.receiver.deviceId = (firstNamed packs).elim [] Packet.deviceId
  adopted : r.receiver.announcedIds = (firstNamed packs).toList.map Packet.deviceId
  accepted : r.receiver.acceptedPackets = packetsOf r.receiver.deviceId packs
  refreshes : r.receiver.events.count .refreshed = (packetsOf r.receiver.deviceId packs).length
  foreign : ∀ pack ∈ packs, pack.deviceId ≠ [] → pack.deviceId ≠ r.receiver.deviceId → r.reading = false ∧
    (∃ before, r.receiver.events = before ++ [.decoded pack, .disconnected r.receiver.deviceId]) ∧
    ∃ before, packs = before ++ [pack] ∧ ∀ other ∈ before, other.deviceId = [] ∨ other.deviceId = r.receiver.deviceId
  kept : ∀ t, r.Reaches t → r.receiver.deviceId ≠ [] → t.receiver.deviceId = r.receiver.deviceId
  closed : ∀ t, r.Reaches t → r.reading = false → t = r

/-- The first device id that is decoded is announced, and no other. -/
theorem Binds.announcedIds (binds : r.Binds) :
    r.receiver.announcedIds = (firstNamed r.receiver.decodedPackets).toList.map Packet.deviceId := by
  rcases binds.first with ⟨unnamed, none⟩ | ⟨named, pack, found, own, _⟩
  · rw [none]
    refine Receiver.announcedIds_eq_nil fun id member => ?_
    rcases binds.unannounced unnamed _ member with ⟨_, same, _⟩ | last
    · cases same
    · cases last
  · obtain ⟨front, first, back, events, own', anonymous, once⟩ := binds.announced named
    have before : (⟨0, [], front⟩ : Receiver).announcedIds = [] := Receiver.announcedIds_eq_nil fun id member => by
      obtain ⟨_, same, _⟩ := anonymous _ member
      cases same
    have behind : (⟨0, [], first.delivery :: back⟩ : Receiver).announcedIds = [] :=
      Receiver.announcedIds_eq_nil fun id member => by
        rcases List.mem_cons.mp member with same | later
        · exact gotDeviceId_ne_delivery first id same
        · exact once id later
    rw [Receiver.announcedIds] at before behind ⊢
    rw [found, events, List.filterMap_append, before]
    simp [behind, own, own']

/-- What a run has done to a connection, by the packets that the decoder has yielded. -/
theorem settled_of_run {seqGenerator : UInt32} {inputs : List Input} (run : Run step free (start seqGenerator) inputs r) :
    r.Settled (inputs.filterMap Input.decoded) := by
  have reaches : (start seqGenerator).Reaches r := ⟨inputs, run⟩
  have binds := reaches.binds
  have hands : r.Hands := by
    refine (run.invariant (I := fun r => r.Binds ∧ r.Hands) ⟨start_binds seqGenerator, start_hands seqGenerator⟩
      fun s input t ⟨binds, hands⟩ _ taken => ?_).2
    obtain ⟨reading, turn⟩ := turn_of_step taken
    exact ⟨binds.turn reading turn, hands.turn binds reading turn (decodedPackets_of_step taken)⟩
  have decoded : r.receiver.decodedPackets = inputs.filterMap Input.decoded := decodedPackets_of_run run
  rw [← decoded]
  refine ⟨binds, rfl, ?_, binds.announcedIds, hands.accepted, hands.refreshes, fun pack member named apart => ?_,
    fun t later => later.deviceId, fun t ⟨_, later⟩ ended => later.stuck fun _ => by simp [step, ended]⟩
  · rcases binds.first with ⟨unnamed, none⟩ | ⟨_, pack, found, own, _⟩
    · rw [unnamed, none]
      rfl
    · rw [found]
      exact own.symm
  · obtain ⟨before, events, others⟩ := binds.refused pack (Receiver.mem_decodedPackets.mp member) named apart
    have ended := (binds.ended r.receiver.deviceId (by simp [events])).1
    refine ⟨ended, ⟨before, events⟩, (⟨0, [], before⟩ : Receiver).decodedPackets, ?_, fun other inside =>
      others other (Receiver.mem_decodedPackets.mp inside)⟩
    rw [Receiver.decodedPackets, events, List.filterMap_append]
    rfl

end Reception

/-- The binding of an accepted connection: whatever packets the decoder yields,
and so whatever arrives in whatever reads, it announces the first device id that
is decoded, before it delivers anything, delivers the packets of this device and
no others, and ends with the first packet of another one. -/
theorem receivePacket_binds (seqGenerator : UInt32) :
    (∀ inputs r, Run Reception.step free (Reception.start seqGenerator) inputs r →
      r.Settled (inputs.filterMap Reception.Input.decoded)) ∧
    ∀ first results l, ReceiveLoop.start seqGenerator = some first → first.completeAll results = some l →
      (∃ inputs, Run Reception.step free (Reception.start seqGenerator) inputs l.reception ∧
        inputs.filterMap Reception.Input.decoded = first.decodes results) ∧
      l.reception.Settled (first.decodes results) ∧
      ∀ more last, l.completeAll more = some last → l.reception.Reaches last.reception := by
  refine ⟨fun inputs r run => Reception.settled_of_run run, fun first results l started run => ?_⟩
  obtain ⟨inputs, reached⟩ := (ReceiveLoop.start_reaches started).trans (ReceiveLoop.completeAll_reaches run)
  have decoded : inputs.filterMap Reception.Input.decoded = first.decodes results := by
    have all := ReceiveLoop.completeAll_decodes run
    rw [ReceiveLoop.start_decodes started, List.nil_append] at all
    exact (Reception.decodedPackets_of_run reached).symm.trans all
  exact ⟨⟨inputs, reached, decoded⟩, decoded ▸ Reception.settled_of_run reached,
    fun more last rest => ReceiveLoop.completeAll_reaches rest⟩

/-- Whole packets that one device sends are decoded as they are sent. -/
theorem start_receives {packs : List Packet} {deviceId : List UInt8} (short : deviceId.length < deviceIdSize)
    (nulFree : 0 ∉ deviceId) (legal : ∀ pack ∈ packs, pack.Deliverable deviceId) {reads : List (List UInt8)}
    (sent : encodeStream packs = some reads.flatten) (few : reads.flatten.length ≤ Connection.recvBufSize) :
    ∃ first l, ReceiveLoop.start 0 = some first ∧ first.completeAll (reads.map .done) = some l ∧
      first.decodes (reads.map .done) = packs ∧ l.conn.receiver.decodedPackets = packs := by
  obtain ⟨stream, t, encoded, shortIds, whole, decoded⟩ :=
    whole_encodeStream (r := ⟨0, [], []⟩) short nulFree legal (Or.inl rfl)
  cases encoded.symm.trans sent
  obtain ⟨l, run, follows⟩ := receivePacket_follows shortIds (fittingReads_of_length_le few)
  rw [whole] at follows
  obtain ⟨first, started, rest⟩ := Option.bind_eq_some_iff.mp run
  rw [ReceiveLoop.readAll_eq] at rest
  have all := ReceiveLoop.completeAll_decodes rest
  have sent : l.conn.receiver.decodedPackets = packs := by
    rw [follows.of_live.1, decoded]
    rfl
  rw [ReceiveLoop.start_decodes started, List.nil_append, sent] at all
  exact ⟨first, l, started, rest, all.symm, sent⟩

/-- A connection decodes a packet without a device id, two of one device, and one of another. -/
def visit : List Reception.Input :=
  [.packet 0 pong, .packet 0 ping, .packet 0 { ping with seq := 2 }, .packet 0 { ping with deviceId := [0x62] }]

/-- The same as packets, and a part of them as bytes in two reads. -/
theorem receivePacket_binds_visit :
    (∃ r, exec Reception.step free (Reception.start 0) visit = some r ∧ r.reading = false ∧
      r.Settled [pong, ping, { ping with seq := 2 }, { ping with deviceId := [0x62] }]) ∧
    ∃ stream first l, encodeStream [pong, ping] = some stream ∧ ReceiveLoop.start 0 = some first ∧
      first.completeAll [.done (stream.take 100), .done (stream.drop 100)] = some l ∧
      first.decodes [.done (stream.take 100), .done (stream.drop 100)] = [pong, ping] ∧
      l.reception.Settled [pong, ping] := by
  constructor
  · have trace : (exec Reception.step free (Reception.start 0) visit).map Reception.reading = some false := by
      decide +kernel
    obtain ⟨r, done, ended⟩ := Option.map_eq_some_iff.mp trace
    exact ⟨r, done, ended, (receivePacket_binds 0).1 visit r (exec_run done)⟩
  · have legal : ∀ pack ∈ [pong, ping], pack.Deliverable [0x61] := by
      intro pack member
      simp only [List.mem_cons, List.not_mem_nil, or_false] at member
      rcases member with rfl | rfl
      · exact ⟨by decide, by decide, Or.inl rfl⟩
      · exact ⟨by decide, by decide, Or.inr rfl⟩
    have length : (encodeStream [pong, ping]).map List.length = some 175 := by decide +kernel
    obtain ⟨stream, encoded, size⟩ := Option.map_eq_some_iff.mp length
    have cut : [stream.take 100, stream.drop 100].flatten = stream := by simp
    obtain ⟨first, l, started, run, decoded, _⟩ := start_receives (by decide) (by decide) legal
      (encoded.trans (congrArg some cut.symm)) (by rw [cut, size]; decide)
    obtain ⟨_, settled, _⟩ := (receivePacket_binds 0).2 first _ l started run
    exact ⟨stream, first, l, encoded, started, run, decoded, decoded ▸ settled⟩

end Asyncmsg
