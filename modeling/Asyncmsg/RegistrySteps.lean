import Asyncmsg.Registry

namespace Asyncmsg

namespace Registry
variable {r t : Registry} {a : Registry.Action}

/-- A round of `process_packet` leaves the connection as it is, announces its
device id or closes it for another one. -/
theorem process_cases (r : Registry) {c : Nat} {peer : Peer} (receiving : peer.receiving = true) (pack : Packet) :
    (pack.deviceId = [] ∨ peer.deviceId ≠ []) ∧ r.process c peer pack = r.setPeer c peer ∨
      peer.deviceId = [] ∧ pack.deviceId ≠ [] ∧
        r.process c peer pack =
          (r.setPeer c { peer with deviceId := pack.deviceId }).onGotDeviceId c pack.deviceId ∨
      peer.deviceId ≠ [] ∧
        r.process c peer pack = (r.setPeer c { peer with receiving := false }).onDisconnected c peer.deviceId := by
  rcases peer with ⟨deviceId, holders, _, checking⟩
  cases receiving
  by_cases anonymous : pack.deviceId = []
  · left
    refine ⟨Or.inl anonymous, ?_⟩
    simp [process, Receiver.handle, Receiver.emit, react, anonymous]
  · by_cases first : deviceId = []
    · right; left
      refine ⟨first, anonymous, ?_⟩
      cases rsp : pack.rsp <;>
        simp [process, Receiver.handle, Receiver.deliver, Receiver.emit, react, anonymous, first, rsp]
    · by_cases same : deviceId = pack.deviceId
      · left
        refine ⟨Or.inr first, ?_⟩
        cases rsp : pack.rsp <;>
          simp [process, Receiver.handle, Receiver.deliver, Receiver.emit, react, anonymous, same, rsp]
      · right; right
        refine ⟨first, ?_⟩
        simp [process, Receiver.handle, Receiver.emit, react, anonymous, first, same]

/-- What a step does, by the action that names it. -/
inductive Moves (r : Registry) : Action → Registry → Prop
  | incoming : r.acceptor = .pending → Moves r .incoming { r with acceptor := .ready }
  | accept : r.acceptor = .ready → Moves r .accept { r with
      acceptor := .pending
      peers := r.peers ++ [⟨[], 0, true, true⟩]
      connections := r.connections ++ [some r.peers.length] }
  | packet {c : Nat} {pack : Packet} {peer : Peer} : r.peers[c]? = some peer → peer.receiving = true → r.Alive c →
      Moves r (.packet c pack) (r.process c peer pack)
  | lost {b : Action} {c : Nat} {peer later : Peer} : b = .readFails c ∨ b = .inactive c →
      r.peers[c]? = some peer → r.Alive c → later.deviceId = peer.deviceId → later.holders = peer.holders →
      Moves r b ((r.setPeer c later).onDisconnected c peer.deviceId)
  | send {c : Nat} {id : List UInt8} {peer : Peer} : r.find id = some c → r.peers[c]? = some peer →
      Moves r (.send id) (r.setPeer c { peer with holders := peer.holders + 1 })
  | leave {b : Action} {c : Nat} {peer later : Peer} : b = .readExpires c ∨ b = .checkEnds c ∨ b = .sendEnds c →
      r.peers[c]? = some peer → later.deviceId = peer.deviceId → later.holders ≤ peer.holders →
      Moves r b (r.setPeer c later)
  | stop {force : Bool} : Moves r (.stop force) { r with stopped := true, stopHandler := some force }
  | runStop {force : Bool} : r.stopHandler = some force → Moves r .runStop { r with
      acceptor := if r.acceptor = .pending then .ended else r.acceptor
      connectionMap := ∅
      connections := []
      stopHandler := none
      running := !force }

theorem moves_of_step (taken : r.step a = some t) : Moves r a t := by
  obtain ⟨_, taken⟩ := Option.ite_none_right_eq_some.mp taken
  cases a with
  | incoming =>
    obtain ⟨pending, same⟩ := Option.ite_none_right_eq_some.mp taken
    cases same
    exact .incoming pending
  | accept =>
    obtain ⟨ready, same⟩ := Option.ite_none_right_eq_some.mp taken
    cases same
    exact .accept ready
  | packet c pack =>
    obtain ⟨peer, found, taken⟩ := Option.bind_eq_some_iff.mp taken
    obtain ⟨⟨receiving, alive⟩, same⟩ := Option.ite_none_right_eq_some.mp taken
    cases same
    exact .packet found receiving alive
  | readFails c =>
    obtain ⟨peer, found, taken⟩ := Option.bind_eq_some_iff.mp taken
    obtain ⟨⟨_, alive⟩, same⟩ := Option.ite_none_right_eq_some.mp taken
    cases same
    exact .lost (Or.inl rfl) found alive rfl rfl
  | readExpires c =>
    obtain ⟨peer, found, taken⟩ := Option.bind_eq_some_iff.mp taken
    obtain ⟨_, same⟩ := Option.ite_none_right_eq_some.mp taken
    cases same
    exact .leave (Or.inl rfl) found rfl le_rfl
  | inactive c =>
    obtain ⟨peer, found, taken⟩ := Option.bind_eq_some_iff.mp taken
    obtain ⟨⟨_, alive⟩, same⟩ := Option.ite_none_right_eq_some.mp taken
    cases same
    exact .lost (Or.inr rfl) found alive rfl rfl
  | checkEnds c =>
    obtain ⟨peer, found, taken⟩ := Option.bind_eq_some_iff.mp taken
    obtain ⟨_, same⟩ := Option.ite_none_right_eq_some.mp taken
    cases same
    exact .leave (Or.inr (Or.inl rfl)) found rfl le_rfl
  | send id =>
    obtain ⟨_, taken⟩ := Option.ite_none_left_eq_some.mp taken
    obtain ⟨c, mapped, taken⟩ := Option.bind_eq_some_iff.mp taken
    obtain ⟨peer, found, same⟩ := Option.bind_eq_some_iff.mp taken
    cases same
    exact .send mapped found
  | sendEnds c =>
    obtain ⟨peer, found, taken⟩ := Option.bind_eq_some_iff.mp taken
    obtain ⟨_, same⟩ := Option.ite_none_right_eq_some.mp taken
    cases same
    exact .leave (Or.inr (Or.inr rfl)) found rfl (Nat.sub_le _ _)
  | stop force =>
    obtain ⟨_, same⟩ := Option.ite_none_left_eq_some.mp taken
    cases same
    exact .stop
  | runStop =>
    obtain ⟨_, handler, same⟩ := Option.bind_eq_some_iff.mp taken
    cases same
    exact .runStop handler

def deviceIdOf (r : Registry) (c : Nat) : Option (List UInt8) := r.peers[c]?.map Peer.deviceId

theorem deviceIdOf_setPeer {c : Nat} {peer : Peer} (found : r.peers[c]? = some peer) (later : Peer) (d : Nat) :
    (r.setPeer c later).deviceIdOf d = if c = d then some later.deviceId else r.deviceIdOf d := by
  have inside := (List.getElem?_eq_some_iff.mp found).1
  rw [deviceIdOf, setPeer, List.getElem?_set]
  simp only [inside, if_true]
  split <;> rfl

/-- A change to a connection that is not to its device id. -/
theorem deviceIdOf_setPeer_same {c : Nat} {peer later : Peer} (found : r.peers[c]? = some peer)
    (same : later.deviceId = peer.deviceId) (d : Nat) : (r.setPeer c later).deviceIdOf d = r.deviceIdOf d := by
  rw [deviceIdOf_setPeer found]
  split
  · rename_i here
    rw [← here, deviceIdOf, found, same]
    rfl
  · rfl

/-- A connection that has just been accepted. -/
theorem deviceIdOf_of_append (peer : Peer) (grown : t.peers = r.peers ++ [peer]) (d : Nat) :
    t.deviceIdOf d = if r.peers.length = d then some peer.deviceId else r.deviceIdOf d := by
  simp only [deviceIdOf, grown, List.getElem?_append, List.getElem?_singleton]
  split <;> rename_i beyond
  · rw [if_neg (by omega)]
  · split <;> rename_i here
    · rw [if_pos (by omega)]
      rfl
    · rw [if_neg (by omega), List.getElem?_eq_none (by omega)]

/-- What a step does to the registry. -/
inductive Effect (r t : Registry) : Prop
  | quiet : t.connectionMap = r.connectionMap → t.connections = r.connections → t.disconnects = r.disconnects →
      (∀ d, t.deviceIdOf d = r.deviceIdOf d) → Effect r t
  | accepted : t.connectionMap = r.connectionMap → t.connections = r.connections ++ [some r.peers.length] →
      t.disconnects = r.disconnects →
      (∀ d, t.deviceIdOf d = if r.peers.length = d then some [] else r.deviceIdOf d) → Effect r t
  | announced {c : Nat} {id : List UInt8} : r.deviceIdOf c = some [] → id ≠ [] → some c ∈ r.connections →
      t.connectionMap = r.connectionMap.insert id c → t.connections = r.connections.erase (some c) →
      t.disconnects = r.disconnects → (∀ d, t.deviceIdOf d = if c = d then some id else r.deviceIdOf d) → Effect r t
  | unlisted {c : Nat} {id : List UInt8} : some c ∉ r.connections → t.connectionMap = r.connectionMap →
      t.connections = r.connections → t.disconnects = r.disconnects → r.deviceIdOf c = some [] →
      (∀ d, t.deviceIdOf d = if c = d then some id else r.deviceIdOf d) → Effect r t
  | disconnected {c : Nat} {id : List UInt8} : r.deviceIdOf c = some id → r.Alive c →
      t.connectionMap = r.connectionMap.erase id →
      t.connections = RemoveIf.removeIf (· == some c) none r.connections →
      t.disconnects = r.disconnects ++ [(c, id)] → (∀ d, t.deviceIdOf d = r.deviceIdOf d) → Effect r t
  | stopped : t.connectionMap = ∅ → t.connections = [] → t.disconnects = r.disconnects →
      (∀ d, t.deviceIdOf d = r.deviceIdOf d) → Effect r t

theorem effect_onDisconnected {c : Nat} {peer later : Peer} (found : r.peers[c]? = some peer)
    (same : later.deviceId = peer.deviceId) (alive : r.Alive c) :
    Effect r ((r.setPeer c later).onDisconnected c peer.deviceId) :=
  .disconnected (by rw [deviceIdOf, found]; rfl) alive rfl rfl rfl (deviceIdOf_setPeer_same found same)

theorem effect_setPeer {c : Nat} {peer later : Peer} (found : r.peers[c]? = some peer)
    (same : later.deviceId = peer.deviceId) : Effect r (r.setPeer c later) :=
  .quiet rfl rfl rfl (deviceIdOf_setPeer_same found same)

theorem effect_process {c : Nat} {peer : Peer} (found : r.peers[c]? = some peer) (receiving : peer.receiving = true)
    (alive : r.Alive c) (pack : Packet) : Effect r (r.process c peer pack) := by
  have own : r.deviceIdOf c = some peer.deviceId := by rw [deviceIdOf, found]; rfl
  rcases r.process_cases receiving pack with ⟨_, same⟩ | ⟨first, named, same⟩ | ⟨_, same⟩ <;> rw [same]
  · exact effect_setPeer found rfl
  · rw [first] at own
    unfold onGotDeviceId
    split
    · rename_i listed
      exact .announced own named listed rfl rfl rfl (deviceIdOf_setPeer found _)
    · rename_i unlisted
      exact .unlisted unlisted rfl rfl rfl own (deviceIdOf_setPeer found _)
  · exact effect_onDisconnected found rfl alive

theorem effect_of_step (taken : r.step a = some t) : Effect r t := by
  cases moves_of_step taken with
  | incoming => exact .quiet rfl rfl rfl fun _ => rfl
  | accept => exact .accepted rfl rfl rfl (deviceIdOf_of_append ⟨[], 0, true, true⟩ rfl)
  | packet found receiving alive => exact effect_process found receiving alive _
  | lost _ found alive same => exact effect_onDisconnected found same alive
  | send _ found => exact effect_setPeer found rfl
  | leave _ found same => exact effect_setPeer found same
  | stop => exact .quiet rfl rfl rfl fun _ => rfl
  | runStop => exact .stopped rfl rfl rfl fun _ => rfl

end Registry
end Asyncmsg
